import AnnotationDefaults.ClassFile.Format
import AnnotationDefaults.Proofs.Bytes.Truncation
import Mathlib.Data.Nat.Init

set_option autoImplicit false

/-!
Class files cut short or followed by other bytes. Every field, every table and the pool are
frugal, whatever the checks made between the reads, so a class file that was read is read
again from its own bytes in front of any others, and each proper part of those bytes makes
the reader run out of bytes and report nothing else.
-/

namespace AnnotationDefaults

open Decoder (IsFrugal isFrugal_pure isFrugal_throw isFrugal_lift isFrugal_offset isFrugal_bytes
  isFrugal_byte isFrugal_short isFrugal_word isFrugal_doubleWord isFrugal_signedWord
  isFrugal_signedDoubleWord)

namespace Constant

theorem isFrugal_decodeFields (tag : UInt8) (offset : Nat) :
    IsFrugal (decodeFields tag offset) := by
  unfold decodeFields
  split
  · refine isFrugal_short.bind fun length => (isFrugal_bytes _).bind fun payload => ?_
    exact (isFrugal_lift (decodeText payload)).converted Constant.utf8
  · exact isFrugal_signedWord.converted Constant.integer
  · exact isFrugal_word.converted Constant.float
  · exact isFrugal_signedDoubleWord.converted Constant.long
  · exact isFrugal_doubleWord.converted Constant.double
  · exact isFrugal_short.converted Constant.classRef
  · exact isFrugal_short.converted Constant.string
  · exact isFrugal_short.bind fun owner => isFrugal_short.converted (Constant.memberRef 9 owner)
  · exact isFrugal_short.bind fun owner => isFrugal_short.converted (Constant.memberRef 10 owner)
  · exact isFrugal_short.bind fun owner => isFrugal_short.converted (Constant.memberRef 11 owner)
  · exact isFrugal_short.bind fun name => isFrugal_short.converted (Constant.nameAndType name)
  · exact isFrugal_byte.bind fun kind => isFrugal_short.converted (Constant.methodHandle kind)
  · exact isFrugal_short.converted Constant.methodType
  · exact isFrugal_short.bind fun first => isFrugal_short.converted (Constant.dynamic 17 first)
  · exact isFrugal_short.bind fun first => isFrugal_short.converted (Constant.dynamic 18 first)
  · exact isFrugal_short.converted Constant.module
  · exact isFrugal_short.converted Constant.package
  · exact isFrugal_throw _

theorem isFrugal_decode : IsFrugal decode :=
  isFrugal_offset.bind fun offset => isFrugal_byte.bind fun tag =>
    isFrugal_decodeFields tag offset

end Constant

namespace ConstantPool

theorem isFrugal_decodeSlots (count : Nat) : IsFrugal (decodeSlots count) := by
  -- A wide constant leaves two slots less to fill.
  induction count using Nat.twoStepInduction with
  | zero => exact isFrugal_pure []
  | one => exact Constant.isFrugal_decode.converted fun constant => [some constant]
  | more count ihWide ihOne =>
      refine Constant.isFrugal_decode.bind fun constant => ?_
      cases hWide : constant.isWide with
      | true => exact ihWide.converted fun rest => constant.slots ++ rest
      | false => exact ihOne.converted fun rest => constant.slots ++ rest

theorem isFrugal_decode : IsFrugal decode :=
  isFrugal_short.bind fun count => (isFrugal_decodeSlots (count.toNat - 1)).converted ofSlots

end ConstantPool

theorem Attribute.isFrugal_decode : IsFrugal decode :=
  isFrugal_short.bind fun name => isFrugal_word.bind fun length =>
    (isFrugal_bytes length.toNat).converted (Attribute.mk name)

theorem Member.isFrugal_decode : IsFrugal decode :=
  isFrugal_short.bind fun flags => isFrugal_short.bind fun name =>
    isFrugal_short.bind fun descriptor =>
      Attribute.isFrugal_decode.counted.converted (Member.mk flags name descriptor)

namespace ClassFile

theorem isFrugal_decode : IsFrugal decode := by
  refine isFrugal_word.bind fun found => ?_
  dsimp only
  by_cases hMagic : found = magic
  · rw [if_neg (not_not_intro hMagic)]
    refine isFrugal_short.bind fun minorVersion => isFrugal_short.bind fun majorVersion => ?_
    refine ConstantPool.isFrugal_decode.bind fun pool => ?_
    refine isFrugal_short.bind fun accessFlags => isFrugal_short.bind fun thisClass => ?_
    refine isFrugal_short.bind fun superClass => ?_
    refine isFrugal_short.counted.bind fun interfaces => ?_
    refine Member.isFrugal_decode.counted.bind fun fields => ?_
    refine Member.isFrugal_decode.counted.bind fun methods => ?_
    exact Attribute.isFrugal_decode.counted.bind fun attributes => isFrugal_pure _
  · rw [if_pos hMagic]
    intro cursor file after hRun
    cases hRun

/-- A class file is read from a first part of its bytes. The same class file is read from
that part in front of any other bytes, and each shorter part makes the reader run out of
bytes at the end of what is there. -/
theorem ofBytes_extended_and_cut {bytes : List UInt8} {file : ClassFile}
    (hFile : ofBytes bytes = .ok file) :
    ∃ size, size ≤ bytes.length ∧
      decode.run (.ofBytes bytes) = .ok (file, .into bytes size) ∧
      (∀ suffix, ofBytes (bytes.take size ++ suffix) = .ok file) ∧
      ∀ count < size, ∃ offset need remaining,
        ofBytes (bytes.take count) = .error (.unexpectedEnd offset need remaining) ∧
        offset + remaining = count ∧ remaining < need := by
  obtain ⟨⟨decoded, after⟩, hRun, rfl⟩ := map_eq_ok_iff.1 hFile
  obtain ⟨taken, hSpans, hSame, hCut⟩ := isFrugal_decode _ _ _ hRun
  obtain ⟨hBytes, hAfter⟩ := Cursor.ofBytes_spans_iff.1 hSpans
  have hTaken : bytes.take taken.length = taken := by rw [hBytes, List.take_left]
  refine ⟨taken.length, ?_, ?_, fun suffix => ?_, fun count hCount => ?_⟩
  · rw [hBytes, List.length_append]
    exact Nat.le_add_right _ _
  · rw [hRun, ← hAfter]
  · rw [hTaken]
    exact map_eq_ok_iff.2 ⟨_, hSame suffix, rfl⟩
  · have hPart : bytes.take count = taken.take count := by
      rw [hBytes, List.take_append_of_le_length (Nat.le_of_lt hCount)]
    have hMissing : taken.drop count ≠ [] := by
      rw [Ne, List.drop_eq_nil_iff, Nat.not_le]
      exact hCount
    obtain ⟨offset, need, remaining, hError, hEnd, hShort⟩ :=
      hCut (taken.take count) (taken.drop count) (List.take_append_drop _ _).symm hMissing
    refine ⟨offset, need, remaining, ?_, ?_, hShort⟩
    · rw [hPart]
      exact congrArg (Except.map (·.1)) hError
    · rw [hEnd, Cursor.remaining, List.length_take, Nat.min_eq_left (Nat.le_of_lt hCount)]
      exact Nat.zero_add count

/-- A class file without members whose only constant is an eight-byte number. -/
def longOnly : List UInt8 :=
  [0xca, 0xfe, 0xba, 0xbe, 0, 0, 0, 65, 0, 3, 5, 0, 0, 0, 0, 0, 0, 0, 7, 0, 0, 0, 0, 0, 0, 0, 0, 0,
    0, 0, 0, 0, 0]

/-- Cut inside the number, the class file ends four bytes early for it; the byte behind the
class file is not looked at. -/
theorem ofBytes_cut_inside_number :
    ∃ file, ofBytes (longOnly ++ [1]) = .ok file ∧ ofBytes (longOnly ++ [2, 3]) = .ok file ∧
      ∃ offset need remaining,
        ofBytes (longOnly.take 15) = .error (.unexpectedEnd offset need remaining) ∧
        offset + remaining = 15 ∧ remaining < need := by
  obtain ⟨file, hFile⟩ : ∃ file, ofBytes (longOnly ++ [1]) = .ok file := ⟨_, rfl⟩
  obtain ⟨size, -, hRun, hSame, hCut⟩ := ofBytes_extended_and_cut hFile
  have hSize : size = 33 := by
    cases hRun
    rfl
  subst hSize
  exact ⟨file, hFile, hSame [2, 3], hCut 15 (by decide)⟩

end ClassFile

end AnnotationDefaults
