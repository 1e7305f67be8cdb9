import AnnotationDefaults.Proofs.ClassFile.Decoding
import AnnotationDefaults.Report.ClassCheck

set_option autoImplicit false

/-!
Lengths of decoded defaults. The decoder of a default consumes as many bytes as the value's
shape says, so the declared length agrees with the computed one exactly if nothing follows
the value, and otherwise exceeds it by the bytes that do.
-/

namespace AnnotationDefaults.AnnotationDefault

variable {entry : Attribute} {default : AnnotationDefault}

theorem run_decode_of_ofAttribute (hDefault : ofAttribute entry = .ok default) :
    default.declaredLength = entry.declaredLength ∧
      ∃ after, Element.decode.run (.ofBytes entry.info) = .ok (default.value, after) := by
  obtain ⟨⟨value, after⟩, hRun, hResult⟩ := bind_eq_ok_iff.1 hDefault
  rw [← pure_eq_ok_iff.1 hResult]
  exact ⟨rfl, after, hRun⟩

theorem run_decode_eq_into (hDefault : ofAttribute entry = .ok default) :
    Element.decode.run (.ofBytes entry.info) =
        .ok (default.value, .into entry.info default.value.encodedSize) ∧
      default.value.encodedSize ≤ entry.info.length := by
  obtain ⟨-, after, hRun⟩ := run_decode_of_ofAttribute hDefault
  obtain ⟨-, hSpans⟩ := (Element.reads_decodeWithin _ _ _ _).1 hRun
  obtain ⟨hInfo, rfl⟩ := Cursor.ofBytes_spans_iff.1 hSpans
  rw [Element.length_encode] at hRun
  have hLength := congrArg List.length hInfo
  rw [List.length_append, Element.length_encode] at hLength
  exact ⟨hRun, hLength ▸ Nat.le_add_right _ _⟩

theorem lengthCheck_self (default : AnnotationDefault) :
    default.lengthCheck default.value.tag =
      if default.value.encodedSize = default.declaredLength then .agreed
      else .lengthMismatch default.value.encodedSize default.declaredLength :=
  if_neg fun hDifferent => hDifferent rfl

/-- The decoder of a default moves over the value's computed size, no sum in which
overflows. The length check with the value's own tag agrees exactly if no contents are
left over, and a mismatch tells how many bytes are. -/
theorem length_reconciled (hBounded : entry.IsBounded)
    (hDefault : ofAttribute entry = .ok default) :
    Element.decode.run (.ofBytes entry.info) =
        .ok (default.value, .into entry.info default.value.encodedSize) ∧
      default.value.encodedSize ≤ entry.info.length ∧
      (∃ size, default.value.checkedSize = some size ∧
        size.toNat = default.value.encodedSize) ∧
      ((default.lengthOutcome default.value.tag).check = .agreed ↔
        entry.info.drop default.value.encodedSize = []) ∧
      ((default.lengthOutcome default.value.tag).check ≠ .agreed →
        ∃ computed declared,
          (default.lengthOutcome default.value.tag).check = .lengthMismatch computed declared ∧
          computed < declared ∧
          declared - computed = (entry.info.drop default.value.encodedSize).length) := by
  obtain ⟨hRun, hSize⟩ := run_decode_eq_into hDefault
  have hDeclared : default.declaredLength = entry.info.length :=
    (run_decode_of_ofAttribute hDefault).1.trans (Attribute.declaredLength_of_isBounded hBounded)
  have hWords : UInt32.size < UInt64.size := by decide
  have hFits : default.value.encodedSize < UInt64.size := (hSize.trans_lt hBounded).trans hWords
  have hChecked : (UInt64.ofNat default.value.encodedSize).toNat = default.value.encodedSize :=
    UInt64.toNat_ofNat_of_lt' hFits
  refine ⟨hRun, hSize, ⟨_, (Element.denotes_checkedSize default.value _).2 hChecked, hChecked⟩, ?_⟩
  rw [lengthOutcome, lengthCheck_self, hDeclared, List.drop_eq_nil_iff]
  by_cases hAll : default.value.encodedSize = entry.info.length
  · rw [if_pos hAll]
    exact ⟨⟨fun _ => hAll.ge, fun _ => rfl⟩, fun hNot => absurd rfl hNot⟩
  · have hLess : default.value.encodedSize < entry.info.length := Nat.lt_of_le_of_ne hSize hAll
    rw [if_neg hAll]
    refine ⟨⟨fun hAgreed => ?_, fun hNone => ?_⟩, fun _ => ?_⟩
    · cases hAgreed
    · exact absurd hNone (Nat.not_le.2 hLess)
    · exact ⟨_, _, rfl, hLess, (List.length_drop).symm⟩

/-- An array of one annotation, with two bytes behind it. -/
def overlongEntry : Attribute :=
  ⟨1, Element.encode (.array [.annotationValue 5 [(6, .literal .int 7)]]) ++ [0, 0]⟩

/-- Of fifteen bytes the value takes thirteen. -/
theorem length_reconciled_overlong :
    overlongEntry.IsBounded ∧ ∃ default, ofAttribute overlongEntry = .ok default ∧
      default.value.encodedSize = 13 ∧ ∃ computed declared,
        (default.lengthOutcome default.value.tag).check = .lengthMismatch computed declared ∧
        computed < declared ∧ declared - computed = 2 := by
  have hBounded : overlongEntry.IsBounded := by
    unfold Attribute.IsBounded
    decide
  refine ⟨hBounded, _, rfl, rfl, ?_⟩
  exact (length_reconciled hBounded rfl).2.2.2.2 (by decide)

end AnnotationDefaults.AnnotationDefault
