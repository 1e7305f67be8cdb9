import AnnotationDefaults.Proofs.Bytes.Format
import AnnotationDefaults.Proofs.ConstantPool.Lookup
import AnnotationDefaults.Proofs.Text.ModifiedUtf8

set_option autoImplicit false

/-!
Pools read back. A constant is read from its own bytes if its text is short enough for a
two-byte length and its tag is one of its kind; a text that was read stands in its bytes as
a payload. The constants of a pool are read one after the other until the counted slots are
full, which is exactly behind the last.
-/

namespace AnnotationDefaults

open Decoder (Reads run_bind_eq_ok_iff run_pure_eq_ok_iff run_bytes_eq_ok_iff reads_byte
  reads_short)

variable {cursor after : Cursor}

/-! ### Records -/

theorem Decoder.Reads.run_one {α β : Type} {decoder : Decoder α} {encode : α → List UInt8}
    (hReads : Reads decoder encode fun _ => True) (build : α → β) {value : α}
    (hSpans : cursor.Spans (encode value) after) :
    StateT.run (do return build (← decoder)) cursor = .ok (build value, after) :=
  run_bind_eq_ok_iff.2 ⟨value, after, (hReads _ _ _).2 ⟨trivial, hSpans⟩, rfl⟩

theorem Decoder.Reads.run_two {α β γ : Type} {first : Decoder α} {second : Decoder β}
    {encodeFirst : α → List UInt8} {encodeSecond : β → List UInt8}
    (hFirst : Reads first encodeFirst fun _ => True)
    (hSecond : Reads second encodeSecond fun _ => True) (build : α → β → γ) {left : α} {right : β}
    (hSpans : cursor.Spans (encodeFirst left ++ encodeSecond right) after) :
    StateT.run (do return build (← first) (← second)) cursor = .ok (build left right, after) := by
  obtain ⟨between, hLeft, hRight⟩ := Cursor.spans_append_iff.1 hSpans
  exact run_bind_eq_ok_iff.2
    ⟨left, between, (hFirst _ _ _).2 ⟨trivial, hLeft⟩, hSecond.run_one (build left) hRight⟩

namespace Constant

/-- The constant has bytes of its own: a text is short enough, and a tag that is kept is
one of its kind. -/
def IsEncodable : Constant → Prop
  | .utf8 text => (ModifiedUtf8.encode text).length < UInt16.size
  | .memberRef tag _ _ => tag = 9 ∨ tag = 10 ∨ tag = 11
  | .dynamic tag _ _ => tag = 17 ∨ tag = 18
  | _ => True

private theorem run_decodeText {text : String} (offset : Nat)
    (hLength : (ModifiedUtf8.encode text).length < UInt16.size)
    (hSpans : cursor.Spans (encodeFields (.utf8 text)) after) :
    (decodeFields 1 offset).run cursor = .ok (.utf8 text, after) := by
  obtain ⟨between, hCount, hPayload⟩ := Cursor.spans_append_iff.1 hSpans
  have hNumber : (UInt16.ofNat (ModifiedUtf8.encode text).length).toNat =
      (ModifiedUtf8.encode text).length :=
    UInt16.toNat_ofNat_of_lt' hLength
  rw [← hNumber] at hCount
  refine run_bind_eq_ok_iff.2 ⟨_, between, (reads_short _ _ _).2 ⟨trivial, hCount⟩, ?_⟩
  refine run_bind_eq_ok_iff.2
    ⟨_, after, run_bytes_eq_ok_iff.2 ⟨hNumber.symm, hPayload⟩, ?_⟩
  rw [decodeText, ModifiedUtf8.decode_encode]
  rfl

theorem run_decodeFields {constant : Constant} (offset : Nat) (hEncodable : constant.IsEncodable)
    (hSpans : cursor.Spans constant.encodeFields after) :
    (decodeFields constant.tag offset).run cursor = .ok (constant, after) := by
  cases constant with
  | utf8 text => exact run_decodeText offset hEncodable hSpans
  | integer value => exact Decoder.reads_signedWord.run_one Constant.integer hSpans
  | float bits => exact Decoder.reads_word.run_one Constant.float hSpans
  | long value => exact Decoder.reads_signedDoubleWord.run_one Constant.long hSpans
  | double bits => exact Decoder.reads_doubleWord.run_one Constant.double hSpans
  | classRef name => exact reads_short.run_one Constant.classRef hSpans
  | string text => exact reads_short.run_one Constant.string hSpans
  | memberRef tag owner member =>
      rcases hEncodable with rfl | rfl | rfl
      · exact reads_short.run_two reads_short (Constant.memberRef 9) hSpans
      · exact reads_short.run_two reads_short (Constant.memberRef 10) hSpans
      · exact reads_short.run_two reads_short (Constant.memberRef 11) hSpans
  | nameAndType name descriptor =>
      exact reads_short.run_two reads_short Constant.nameAndType hSpans
  | methodHandle referenceKind reference =>
      exact reads_byte.run_two reads_short Constant.methodHandle hSpans
  | methodType descriptor => exact reads_short.run_one Constant.methodType hSpans
  | dynamic tag bootstrap member =>
      rcases hEncodable with rfl | rfl
      · exact reads_short.run_two reads_short (Constant.dynamic 17) hSpans
      · exact reads_short.run_two reads_short (Constant.dynamic 18) hSpans
  | module name => exact reads_short.run_one Constant.module hSpans
  | package name => exact reads_short.run_one Constant.package hSpans

theorem run_decode {constant : Constant} (hEncodable : constant.IsEncodable)
    (hSpans : cursor.Spans constant.encode after) :
    decode.run cursor = .ok (constant, after) := by
  have hParts : constant.encode = [constant.tag] ++ constant.encodeFields := rfl
  rw [hParts, Cursor.spans_append_iff] at hSpans
  obtain ⟨between, hTag, hFields⟩ := hSpans
  refine run_bind_eq_ok_iff.2 ⟨cursor.offset, cursor, rfl, ?_⟩
  exact run_bind_eq_ok_iff.2 ⟨constant.tag, between, (reads_byte _ _ _).2 ⟨trivial, hTag⟩,
    run_decodeFields cursor.offset hEncodable hFields⟩

/-! ### Texts -/

variable {text : String}

def textRecord (payload : List UInt8) : List UInt8 :=
  1 :: (bigEndian 2 payload.length ++ payload)

theorem run_decodeFields_ne_utf8 {tag : UInt8} {offset : Nat} (hTag : tag ≠ 1) :
    ¬ (decodeFields tag offset).run cursor = .ok (.utf8 text, after) := by
  unfold decodeFields
  split
  case h_1 => exact absurd rfl hTag
  case h_18 =>
    intro hThrown
    cases hThrown
  all_goals
    simp only [run_bind_eq_ok_iff, run_pure_eq_ok_iff, reduceCtorEq, false_and, and_false,
      exists_false, not_false_iff]

theorem spans_of_run_decodeFields {offset : Nat}
    (hRun : (decodeFields 1 offset).run cursor = .ok (.utf8 text, after)) :
    ∃ payload, payload.length < UInt16.size ∧
      cursor.Spans (bigEndian 2 payload.length ++ payload) after ∧
      decodeText payload = .ok text := by
  obtain ⟨length, between, hShort, hRest⟩ := run_bind_eq_ok_iff.1 hRun
  obtain ⟨payload, behind, hPayload, hText⟩ := run_bind_eq_ok_iff.1 hRest
  obtain ⟨hCount, hSpans⟩ := run_bytes_eq_ok_iff.1 hPayload
  have hLength : payload.length < UInt16.size := hCount ▸ length.toNat_lt
  have hNumber : cursor.Spans (bigEndian 2 length.toNat) between :=
    ((reads_short _ _ _).1 hShort).2
  rw [← hCount] at hNumber
  cases hRead : decodeText payload with
  | error cause =>
      rw [hRead] at hText
      cases hText
  | ok found =>
      rw [hRead] at hText
      cases hText
      exact ⟨payload, hLength, hNumber.append hSpans, hRead⟩

theorem spans_of_run_decode (hRun : decode.run cursor = .ok (.utf8 text, after)) :
    ∃ payload, payload.length < UInt16.size ∧ cursor.Spans (textRecord payload) after ∧
      decodeText payload = .ok text := by
  obtain ⟨offset, here, hOffset, hRest⟩ := run_bind_eq_ok_iff.1 hRun
  cases hOffset
  obtain ⟨tag, between, hTag, hFields⟩ := run_bind_eq_ok_iff.1 hRest
  have hFirst := ((reads_byte _ _ _).1 hTag).2
  by_cases hText : tag = 1
  · subst hText
    obtain ⟨payload, hLength, hSpans, hRead⟩ := spans_of_run_decodeFields hFields
    exact ⟨payload, hLength, hFirst.append hSpans, hRead⟩
  · exact absurd hFields (run_decodeFields_ne_utf8 hText)

end Constant

namespace ConstantPool

theorem run_decodeSlots_cons {constant : Constant} {count : Nat} {rest : List (Option Constant)}
    {between : Cursor} (hConstant : Constant.decode.run cursor = .ok (constant, between))
    (hRest : (decodeSlots count).run between = .ok (rest, after)) :
    (decodeSlots (constant.slots.length + count)).run cursor =
      .ok (constant.slots ++ rest, after) := by
  cases hWide : constant.isWide with
  | true =>
      have hCount : constant.slots.length + count = count + 2 := by
        rw [Constant.slots, if_pos hWide, Nat.add_comm]
        rfl
      rw [hCount, decodeSlots]
      refine run_bind_eq_ok_iff.2 ⟨constant, between, hConstant, ?_⟩
      dsimp only
      rw [if_pos hWide]
      exact run_bind_eq_ok_iff.2 ⟨rest, after, hRest, rfl⟩
  | false =>
      have hNarrow : ¬ constant.isWide = true := by
        rw [hWide]
        exact Bool.false_ne_true
      have hSlots : constant.slots = [some constant] := if_neg hNarrow
      rw [hSlots, List.length_singleton, Nat.add_comm]
      cases count with
      | zero =>
          -- For one slot the reader has a case of its own, which reads nothing behind it.
          cases hRest
          exact run_bind_eq_ok_iff.2 ⟨constant, _, hConstant, rfl⟩
      | succ count =>
          rw [decodeSlots]
          refine run_bind_eq_ok_iff.2 ⟨constant, between, hConstant, ?_⟩
          dsimp only
          rw [if_neg hNarrow, hSlots]
          exact run_bind_eq_ok_iff.2 ⟨rest, after, hRest, rfl⟩

theorem run_decodeSlots {constants : List Constant}
    (hEncodable : ∀ constant ∈ constants, constant.IsEncodable)
    (hSpans : cursor.Spans (constants.flatMap Constant.encode) after) :
    (decodeSlots (constants.flatMap Constant.slots).length).run cursor =
      .ok (constants.flatMap Constant.slots, after) := by
  induction constants generalizing cursor with
  | nil =>
      rw [Cursor.spans_nil_iff.1 hSpans]
      rfl
  | cons constant rest ih =>
      rw [List.forall_mem_cons] at hEncodable
      rw [List.flatMap_cons, Cursor.spans_append_iff] at hSpans
      obtain ⟨between, hConstant, hRest⟩ := hSpans
      rw [List.flatMap_cons, List.length_append]
      exact run_decodeSlots_cons (Constant.run_decode hEncodable.1 hConstant)
        (ih hEncodable.2 hRest)

theorem filterMap_slots (constants : List Constant) :
    (constants.flatMap Constant.slots).filterMap id = constants := by
  induction constants with
  | nil => rfl
  | cons constant rest ih =>
      rw [List.flatMap_cons, List.filterMap_append, ih, Constant.slots]
      cases constant.isWide with
      | true => rfl
      | false => rfl

theorem encode_ofConstants (constants : List Constant) :
    (ofConstants constants).encode =
      bigEndian 2 (ofConstants constants).size ++ constants.flatMap Constant.encode := by
  rw [encode]
  congr 2
  rw [ofConstants, ofSlots, List.toList_toArray, filterMap_slots]

theorem run_decode {constants : List Constant}
    (hEncodable : ∀ constant ∈ constants, constant.IsEncodable)
    (hSize : (ofConstants constants).size < UInt16.size)
    (hSpans : cursor.Spans (ofConstants constants).encode after) :
    decode.run cursor = .ok (ofConstants constants, after) := by
  rw [encode_ofConstants, Cursor.spans_append_iff] at hSpans
  obtain ⟨between, hCount, hConstants⟩ := hSpans
  have hNumber : (UInt16.ofNat (ofConstants constants).size).toNat =
      (ofConstants constants).size :=
    UInt16.toNat_ofNat_of_lt' hSize
  rw [← hNumber] at hCount
  refine run_bind_eq_ok_iff.2 ⟨_, between, (reads_short _ _ _).2 ⟨trivial, hCount⟩, ?_⟩
  refine run_bind_eq_ok_iff.2 ⟨_, after, ?_, rfl⟩
  have hSlots := run_decodeSlots hEncodable hConstants
  rw [hNumber, size_ofConstants, Nat.add_sub_cancel_left]
  exact hSlots

end ConstantPool

end AnnotationDefaults
