import AnnotationDefaults.Proofs.Builder.Class
import AnnotationDefaults.Proofs.Expectation.Rendering
import AnnotationDefaults.Proofs.Expectation.Specification

set_option autoImplicit false

/-!
Literals written into a pool against their own specifications. A literal has one rendering:
its specification compiles to it, and every value that refers to the literal's constants is
rendered as it, whichever pool holds them. So the bytes of a literal and its specification
meet, wherever in a session the literal was encoded.
-/

namespace AnnotationDefaults

namespace Scalar

/-! ### Constants and tokens of scalars -/

variable {pool : ConstantPool} {index : UInt16}

def constant : Scalar → Constant
  | .int value => .integer value
  | .long value => .long value
  | .float bits => .float bits
  | .double bits => .double bits
  | .text content => .utf8 content

theorem resolve_of_get {kind : LiteralTag} {value : Scalar} (hKind : HasKind kind value)
    (hIndex : pool.get index = .ok value.constant) :
    resolve pool kind index = .ok value := by
  cases value with
  | int value =>
      have hValue : pool.integer index = .ok value := by
        rw [ConstantPool.integer, hIndex]
        rfl
      cases kind with
      | long => cases hKind
      | float => cases hKind
      | double => cases hKind
      | string => cases hKind
      | _ => exact congrArg (Except.map Scalar.int) hValue
  | long value =>
      have hValue : pool.long index = .ok value := by
        rw [ConstantPool.long, hIndex]
        rfl
      cases kind with
      | long => exact congrArg (Except.map Scalar.long) hValue
      | _ => cases hKind
  | float bits =>
      have hValue : pool.float index = .ok bits := by
        rw [ConstantPool.float, hIndex]
        rfl
      cases kind with
      | float => exact congrArg (Except.map Scalar.float) hValue
      | _ => cases hKind
  | double bits =>
      have hValue : pool.double index = .ok bits := by
        rw [ConstantPool.double, hIndex]
        rfl
      cases kind with
      | double => exact congrArg (Except.map Scalar.double) hValue
      | _ => cases hKind
  | text content =>
      have hValue : pool.utf8 index = .ok content := ConstantPool.utf8_eq_ok_iff.2 hIndex
      cases kind with
      | string => exact congrArg (Except.map Scalar.text) hValue
      | _ => cases hKind

theorem leafText_of_get {kind : LiteralTag} {token : String} (value : Scalar)
    (hKind : HasKind kind value) (hIndex : pool.get index = .ok value.constant)
    (hToken : value.toToken kind = .ok token) :
    ExpectedElement.leafText pool (.literal kind) index = .ok token :=
  ExpectedElement.leafText_literal_eq_ok_iff.2 ⟨value, resolve_of_get hKind hIndex, hToken⟩

theorem toToken_char {value : Char} (hBasic : value.toNat < 0x10000) :
    toToken .char (.int (Int32.ofInt ((Utf16.ofChar value).head?.getD 0).toNat)) =
      .ok value.toString := by
  have hUnit : ((Utf16.ofChar value).head?.getD 0).toNat = value.toNat := by
    rw [Utf16.ofChar, if_pos hBasic]
    exact UInt16.toNat_ofNat_of_lt' hBasic
  have hNumber : (Int32.ofInt (value.toNat : Int)).toInt = value.toNat :=
    Int32.toInt_ofInt_of_le (by omega) (by omega)
  have hRange : 0 ≤ (value.toNat : Int) ∧ (value.toNat : Int) < 0x10000 := by omega
  have hValid : value.toNat.isValidChar := value.valid
  rw [hUnit, toToken, hNumber, integerToken, if_pos hRange, Int.toNat_natCast,
    charToken, if_pos hValid, Char.ofNat_toNat]
  rfl

theorem toToken_byte (value : Int8) :
    toToken .byte (.int value.toInt32) = .ok (Integer.render value.toInt) := by
  have hFits : Integer.Fits 8 value.toInt := ⟨value.le_toInt, value.toInt_lt⟩
  rw [toToken, Int8.toInt_toInt32, integerToken, if_pos hFits]

theorem toToken_short (value : Int16) :
    toToken .short (.int value.toInt32) = .ok (Integer.render value.toInt) := by
  have hFits : Integer.Fits 16 value.toInt := ⟨value.le_toInt, value.toInt_lt⟩
  rw [toToken, Int16.toInt_toInt32, integerToken, if_pos hFits]

theorem toToken_boolean (value : Bool) :
    toToken .boolean (.int (if value then 1 else 0)) =
      .ok (if value then "true" else "false") := by
  cases value with
  | true => rfl
  | false => rfl

end Scalar

namespace Literal

/-! ### The rendering of a literal -/

/-- At most `levels` values lie one inside the other, a two-byte number counts each list, and
every character is in the basic plane. -/
def IsWritable : (levels : Nat) → Literal → Prop
  | 0, _ => False
  | _ + 1, .char value => value.toNat < 0x10000
  | levels + 1, .annotationValue _ pairs =>
      pairs.length ≤ 65535 ∧ ∀ pair ∈ pairs, IsWritable levels pair.2
  | levels + 1, .array items => items.length ≤ 65535 ∧ ∀ item ∈ items, IsWritable levels item
  | _ + 1, _ => True

instance decidableIsWritable : (levels : Nat) → (literal : Literal) →
    Decidable (literal.IsWritable levels)
  | 0, _ => inferInstanceAs (Decidable False)
  | _ + 1, .char value => inferInstanceAs (Decidable (value.toNat < 0x10000))
  | levels + 1, .annotationValue _ pairs =>
      have := decidableIsWritable levels
      inferInstanceAs (Decidable (pairs.length ≤ 65535 ∧ ∀ pair ∈ pairs, _))
  | levels + 1, .array items =>
      have := decidableIsWritable levels
      inferInstanceAs (Decidable (items.length ≤ 65535 ∧ ∀ item ∈ items, _))
  | _ + 1, .byte _ | _ + 1, .double _ | _ + 1, .float _ | _ + 1, .int _ | _ + 1, .long _
  | _ + 1, .short _ | _ + 1, .boolean _ | _ + 1, .string _ | _ + 1, .enumConstant _ _
  | _ + 1, .classLiteral _ => inferInstanceAs (Decidable True)

mutual

/-- The expected value of a literal, each leaf as the text that stands for it. -/
def rendering : Literal → ExpectedElement
  | .byte value => .literal .byte (Integer.render value.toInt)
  | .char value => .literal .char value.toString
  | .double bits => .literal .double (Scalar.tokenLayout.text .double bits.toNat)
  | .float bits => .literal .float (Scalar.tokenLayout.text .single bits.toNat)
  | .int value => .literal .int (Integer.render value.toInt)
  | .long value => .literal .long (Integer.render value.toInt)
  | .short value => .literal .short (Integer.render value.toInt)
  | .boolean value => .literal .boolean (if value then "true" else "false")
  | .string content => .literal .string content
  | .enumConstant typeName constantName => .enumConstant typeName constantName
  | .classLiteral descriptor => .classLiteral descriptor
  | .annotationValue typeName pairs => .annotationValue typeName (pairRenderings pairs)
  | .array items => .array (itemRenderings items)

def pairRenderings : List (String × Literal) → List (String × ExpectedElement)
  | [] => []
  | (name, value) :: rest => (name, rendering value) :: pairRenderings rest

def itemRenderings : List Literal → List ExpectedElement
  | [] => []
  | item :: rest => rendering item :: itemRenderings rest

end

mutual

theorem toSpec_eq : (literal : Literal) → literal.toSpec = Spec.ofElement literal.rendering
  | .byte _ => rfl
  | .char _ => rfl
  | .double _ => rfl
  | .float _ => rfl
  | .int _ => rfl
  | .long _ => rfl
  | .short _ => rfl
  | .boolean _ => rfl
  | .string _ => rfl
  | .enumConstant _ _ => rfl
  | .classLiteral _ => rfl
  | .annotationValue typeName pairs => by
      rw [toSpec, rendering, Spec.ofElement, pairTokens_eq pairs]
      rfl
  | .array items => by
      rw [toSpec, rendering, Spec.ofElement, itemTokens_eq items]
      rfl

theorem pairTokens_eq :
    (pairs : List (String × Literal)) → pairTokens pairs = Spec.tokensOfPairs (pairRenderings pairs)
  | [] => rfl
  | (name, value) :: rest => by
      rw [pairTokens, pairRenderings, Spec.tokensOfPairs, toSpec_eq value, pairTokens_eq rest]

theorem itemTokens_eq :
    (items : List Literal) → itemTokens items = Spec.tokensOfItems (itemRenderings items)
  | [] => rfl
  | item :: rest => by
      rw [itemTokens, itemRenderings, Spec.tokensOfItems, toSpec_eq item, itemTokens_eq rest]

end

theorem compile_toSpec (literal : Literal) : literal.toSpec.compile = .ok literal.rendering := by
  rw [toSpec_eq]
  exact Spec.compile_ofElement literal.rendering

/-! ### Leaves -/

variable {pool : ConstantPool} {index : UInt16} {levels : Nat} {literal : Literal}

theorem leafText_eq {kind : LiteralTag} {constant : Constant}
    (hWritable : literal.IsWritable (levels + 1))
    (hConstants : literal.constants = .literal kind constant)
    (hIndex : pool.get index = .ok constant) :
    ∃ token, literal.rendering = .literal kind token ∧
      ExpectedElement.leafText pool (.literal kind) index = .ok token := by
  cases literal with
  | byte value =>
      cases hConstants
      exact ⟨_, rfl,
        Scalar.leafText_of_get (.int value.toInt32) trivial hIndex (Scalar.toToken_byte value)⟩
  | char value =>
      cases hConstants
      exact ⟨_, rfl, Scalar.leafText_of_get (.int _) trivial hIndex (Scalar.toToken_char hWritable)⟩
  | double bits =>
      cases hConstants
      exact ⟨_, rfl, Scalar.leafText_of_get (.double bits) trivial hIndex rfl⟩
  | float bits =>
      cases hConstants
      exact ⟨_, rfl, Scalar.leafText_of_get (.float bits) trivial hIndex rfl⟩
  | int value =>
      cases hConstants
      exact ⟨_, rfl, Scalar.leafText_of_get (.int value) trivial hIndex rfl⟩
  | long value =>
      cases hConstants
      exact ⟨_, rfl, Scalar.leafText_of_get (.long value) trivial hIndex rfl⟩
  | short value =>
      cases hConstants
      exact ⟨_, rfl,
        Scalar.leafText_of_get (.int value.toInt32) trivial hIndex (Scalar.toToken_short value)⟩
  | boolean value =>
      cases hConstants
      exact ⟨_, rfl, Scalar.leafText_of_get (.int _) trivial hIndex (Scalar.toToken_boolean value)⟩
  | string content =>
      cases hConstants
      exact ⟨_, rfl, Scalar.leafText_of_get (.text content) trivial hIndex rfl⟩
  | _ => cases hConstants

/-! ### Whole values -/

theorem pairRenderings_eq_map (pairs : List (String × Literal)) :
    pairRenderings pairs = pairs.map fun pair => (pair.1, pair.2.rendering) := by
  induction pairs with
  | nil => rfl
  | cons pair rest ih => rw [pairRenderings, List.map_cons, ih]

theorem itemRenderings_eq_map (items : List Literal) :
    itemRenderings items = items.map rendering := by
  induction items with
  | nil => rfl
  | cons item rest ih => rw [itemRenderings, List.map_cons, ih]

/-- A value that refers to the constants of a writable literal of at most so many levels can
be read back from its bytes, and it is rendered as the literal. -/
def RendersWithin (pool : ConstantPool) (levels : Nat) : Prop :=
  ∀ (literal : Literal) (value : DecodedElement), literal.IsWritable levels →
    pool.resolve value = .ok literal.constants →
    value.FitsWithin levels ∧ ExpectedElement.ofDecoded pool value = .ok literal.rendering

theorem RendersWithin.pairs (hLevels : RendersWithin pool levels) {pairs : List (String × Literal)}
    {values : List (UInt16 × DecodedElement)} (hCount : pairs.length ≤ 65535)
    (hWritable : ∀ pair ∈ pairs, pair.2.IsWritable levels)
    (hValues : List.Forall₂ (fun pair entry => pool.get pair.1 = .ok entry.1 ∧
      pool.resolve pair.2 = .ok entry.2) values (pairConstants pairs)) :
    (values.length < UInt16.size ∧ ∀ pair ∈ values, pair.2.FitsWithin levels) ∧
      List.Forall₂ (fun pair entry => pool.utf8 pair.1 = .ok entry.1 ∧
        ExpectedElement.ofDecoded pool pair.2 = .ok entry.2) values (pairRenderings pairs) := by
  rw [pairConstants_eq_map, List.forall₂_map_right_iff] at hValues
  refine ⟨⟨?_, fun pair hMem => ?_⟩, ?_⟩
  · rw [hValues.length_eq]
    exact Nat.lt_succ_of_le hCount
  · obtain ⟨other, hOther, -, hValue⟩ := exists_right_of_mem hValues hMem
    exact (hLevels other.2 pair.2 (hWritable other hOther) hValue).1
  · rw [pairRenderings_eq_map, List.forall₂_map_right_iff]
    apply forall₂_of_mem hValues
    rintro pair other hOther ⟨hName, hValue⟩
    exact ⟨ConstantPool.utf8_eq_ok_iff.2 hName,
      (hLevels other.2 pair.2 (hWritable other hOther) hValue).2⟩

theorem RendersWithin.items (hLevels : RendersWithin pool levels) {items : List Literal}
    {values : List DecodedElement} (hCount : items.length ≤ 65535)
    (hWritable : ∀ item ∈ items, item.IsWritable levels)
    (hValues : List.Forall₂ (fun item entry => pool.resolve item = .ok entry)
      values (itemConstants items)) :
    (values.length < UInt16.size ∧ ∀ item ∈ values, item.FitsWithin levels) ∧
      List.Forall₂ (fun item entry => ExpectedElement.ofDecoded pool item = .ok entry)
        values (itemRenderings items) := by
  rw [itemConstants_eq_map, List.forall₂_map_right_iff] at hValues
  refine ⟨⟨?_, fun item hMem => ?_⟩, ?_⟩
  · rw [hValues.length_eq]
    exact Nat.lt_succ_of_le hCount
  · obtain ⟨other, hOther, hValue⟩ := exists_right_of_mem hValues hMem
    exact (hLevels other item (hWritable other hOther) hValue).1
  · rw [itemRenderings_eq_map, List.forall₂_map_right_iff]
    apply forall₂_of_mem hValues
    intro item other hOther hValue
    exact (hLevels other item (hWritable other hOther) hValue).2

theorem rendersWithin (pool : ConstantPool) (levels : Nat) : RendersWithin pool levels := by
  -- The value tells which constants it refers to, and these tell the literal's kind.
  induction levels with
  | zero =>
      intro literal value hWritable
      cases hWritable
  | succ levels ih =>
      intro literal value hWritable hValue
      cases value with
      | literal kind index =>
          obtain ⟨constant, hIndex, hConstants⟩ := Element.traverse_literal_eq_ok_iff.1 hValue
          obtain ⟨token, hRendering, hToken⟩ := leafText_eq hWritable hConstants hIndex
          rw [hRendering]
          exact ⟨⟨.literal, Nat.le_add_left 1 levels⟩,
            Element.traverse_literal_eq_ok_iff.2 ⟨token, hToken, rfl⟩⟩
      | enumConstant typeIndex nameIndex =>
          obtain ⟨typeConstant, nameConstant, hType, hName, hConstants⟩ :=
            Element.traverse_enumConstant_eq_ok_iff.1 hValue
          cases literal with
          | enumConstant typeName constantName =>
              cases hConstants
              exact ⟨⟨.enumConstant, Nat.le_add_left 1 levels⟩,
                Element.traverse_enumConstant_eq_ok_iff.2 ⟨typeName, constantName,
                  ConstantPool.utf8_eq_ok_iff.2 hType, ConstantPool.utf8_eq_ok_iff.2 hName, rfl⟩⟩
          | _ => cases hConstants
      | classLiteral index =>
          obtain ⟨constant, hIndex, hConstants⟩ := Element.traverse_classLiteral_eq_ok_iff.1 hValue
          cases literal with
          | classLiteral descriptor =>
              cases hConstants
              exact ⟨⟨.classLiteral, Nat.le_add_left 1 levels⟩,
                Element.traverse_classLiteral_eq_ok_iff.2
                  ⟨descriptor, ConstantPool.utf8_eq_ok_iff.2 hIndex, rfl⟩⟩
          | _ => cases hConstants
      | annotationValue typeIndex values =>
          obtain ⟨typeConstant, converted, hType, hPairs, hConstants⟩ :=
            Element.traverse_annotationValue_eq_ok_iff.1 hValue
          cases literal with
          | annotationValue typeName pairs =>
              cases hConstants
              obtain ⟨hFits, hRendered⟩ := ih.pairs hWritable.1 hWritable.2 hPairs
              exact ⟨Element.fitsWithin_annotationValue_iff.2 hFits,
                Element.traverse_annotationValue_eq_ok_iff.2 ⟨typeName, pairRenderings pairs,
                  ConstantPool.utf8_eq_ok_iff.2 hType, hRendered, rfl⟩⟩
          | _ => cases hConstants
      | array values =>
          obtain ⟨converted, hItems, hConstants⟩ := Element.traverse_array_eq_ok_iff.1 hValue
          cases literal with
          | array items =>
              cases hConstants
              obtain ⟨hFits, hRendered⟩ := ih.items hWritable.1 hWritable.2 hItems
              exact ⟨Element.fitsWithin_array_iff.2 hFits,
                Element.traverse_array_eq_ok_iff.2 ⟨itemRenderings items, hRendered, rfl⟩⟩
          | _ => cases hConstants

end Literal

/-! ### Literals in a session -/

namespace ClassBuilder

theorem Step.exists_of_answers_encode {pool : ConstantPool} {literal : Literal} {answer : Answer}
    (hAnswer : (Step.encode literal).Answers pool answer) :
    ∃ value : DecodedElement, answer = .bytes value.encode ∧
      pool.resolve value = .ok literal.constants := by
  cases answer with
  | declared => cases hAnswer
  | index number => cases hAnswer
  | bytes found =>
      obtain ⟨value, hBytes, hValue⟩ := hAnswer
      exact ⟨value, congrArg Answer.bytes hBytes, hValue⟩

/-- The bytes of a literal that was encoded somewhere in a session are read as one value, and
in the pool of the class file that is read from the session the value is rendered as what the
literal's specification, written as JSON, compiles to. -/
theorem encode_meets_toSpec (name : String) (before after : List Step) (literal : Literal)
    {requests : List Step} (hRequests : requests = before ++ .encode literal :: after)
    (hWritable : literal.IsWritable 64) (hPool : ((start name).run requests).pool.WithinLimits) :
    ∃ bytes value spec expected,
      (step (.encode literal) ((start name).run before)).1 = .bytes bytes ∧
      Element.decode.run (.ofBytes bytes) = .ok (value, ⟨bytes.length, []⟩) ∧
      Spec.ofJson? literal.toSpec.toJson = some spec ∧ spec.compile = .ok expected ∧
      (((start name).run requests).WithinLimits →
        ∃ file, ClassFile.ofBytes ((start name).run requests).build = .ok file) ∧
      ∀ file, ClassFile.ofBytes ((start name).run requests).build = .ok file →
        ExpectedElement.ofDecoded file.pool value = .ok expected := by
  subst hRequests
  have hSound := isSound_run name (before ++ .encode literal :: after) hPool.slots
  have hAnswer := answers_run (start name) before after (.encode literal) List.prefix_rfl hSound
  obtain ⟨value, hBytes, hValue⟩ := Step.exists_of_answers_encode hAnswer
  obtain ⟨hFits, hRendered⟩ := Literal.rendersWithin _ 64 literal value hWritable hValue
  refine ⟨value.encode, value, literal.toSpec, literal.rendering, hBytes, ?_,
    Reading.spec_toJson literal.toSpec, literal.compile_toSpec, ?_, ?_⟩
  · have hSpans := Cursor.ofBytes_spans_self value.encode
    exact (Element.reads_decodeWithin 64 _ _ _).2 ⟨hFits, hSpans⟩
  · intro hLimits
    exact ⟨_, hLimits.ofBytes_build hSound⟩
  · intro file hFile
    rw [pool_of_ofBytes_build hSound hPool.texts hFile]
    exact hRendered

/-- A literal of three levels. One of its texts is in the pool before, and another is asked
for afterwards. -/
def nestedLiteral : Literal :=
  .array [.annotationValue "LMark;" [("size", .char '\u00e9'), ("low", .byte (-7))]]

def nestedSession : List Step := [.text "size"] ++ .encode nestedLiteral :: [.text "low"]

theorem encode_meets_toSpec_nested :
    nestedLiteral.IsWritable 64 ∧ ((start "A").run nestedSession).pool.WithinLimits ∧
      ∃ bytes value file,
        (step (.encode nestedLiteral) ((start "A").run [.text "size"])).1 = .bytes bytes ∧
        Element.decode.run (.ofBytes bytes) = .ok (value, ⟨bytes.length, []⟩) ∧
        ClassFile.ofBytes ((start "A").run nestedSession).build = .ok file ∧
        ExpectedElement.ofDecoded file.pool value = .ok (.array
          [.annotationValue "LMark;" [("size", .literal .char "\u00e9"),
            ("low", .literal .byte "-7")]]) := by
  have hWritable : nestedLiteral.IsWritable 64 := by decide
  have hPool : ((start "A").run nestedSession).pool.WithinLimits :=
    ⟨by decide +kernel, by decide +kernel⟩
  have hLimits : ((start "A").run nestedSession).WithinLimits :=
    ⟨hPool.slots, hPool.texts, by decide +kernel, by decide +kernel, by decide +kernel⟩
  obtain ⟨bytes, value, spec, expected, hBytes, hValue, hSpec, hExpected, hReads, hRendered⟩ :=
    encode_meets_toSpec "A" [.text "size"] [.text "low"] nestedLiteral rfl hWritable hPool
  obtain ⟨file, hFile⟩ := hReads hLimits
  cases hSpec.symm.trans (Reading.spec_toJson nestedLiteral.toSpec)
  cases hExpected.symm.trans nestedLiteral.compile_toSpec
  exact ⟨hWritable, hPool, bytes, value, file, hBytes, hValue, hFile, hRendered file hFile⟩

end ClassBuilder

end AnnotationDefaults
