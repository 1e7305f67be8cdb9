import AnnotationDefaults.Proofs.Bytes.Decoding
import Mathlib.Algebra.Group.Nat.Defs
import Mathlib.Data.List.Induction

set_option autoImplicit false

/-!
Readers that undo writers. A reader is exact for a writer if it accepts just the bytes of
the writer's valid values, returns the value whose bytes they are, and stops behind them.
Numbers of a fixed width are exact, and a counted table is exact if its entries are.
-/

namespace AnnotationDefaults

/-! ### Numbers -/

theorem length_bigEndian (width value : Nat) : (bigEndian width value).length = width := by
  induction width generalizing value with
  | zero => rfl
  | succ width ih => rw [bigEndian, List.length_append, ih, List.length_singleton]

theorem bigEndian_one (byte : UInt8) : bigEndian 1 byte.toNat = [byte] := by
  rw [bigEndian, bigEndian, List.nil_append, UInt8.ofNat_toNat]

theorem bigEndianValue_concat (bytes : List UInt8) (byte : UInt8) :
    bigEndianValue (bytes ++ [byte]) = 256 * bigEndianValue bytes + byte.toNat := by
  rw [bigEndianValue, List.foldl_append]
  rfl

theorem bigEndianValue_lt (bytes : List UInt8) : bigEndianValue bytes < 256 ^ bytes.length := by
  induction bytes using List.reverseRecOn with
  | nil => exact Nat.one_pos
  | append_singleton bytes byte ih =>
      have hByte := byte.toNat_lt
      rw [bigEndianValue_concat, List.length_append, List.length_singleton, Nat.pow_succ]
      omega

theorem bigEndianValue_bigEndian {width value : Nat} (hValue : value < 256 ^ width) :
    bigEndianValue (bigEndian width value) = value := by
  induction width generalizing value with
  | zero =>
      rw [Nat.pow_zero, Nat.lt_one_iff] at hValue
      rw [hValue]
      rfl
  | succ width ih =>
      rw [Nat.pow_succ] at hValue
      rw [bigEndian, bigEndianValue_concat, ih (by omega), UInt8.toNat_ofNat']
      omega

theorem bigEndian_bigEndianValue (bytes : List UInt8) :
    bigEndian bytes.length (bigEndianValue bytes) = bytes := by
  induction bytes using List.reverseRecOn with
  | nil => rfl
  | append_singleton bytes byte ih =>
      have hByte := byte.toNat_lt
      have hHigh : (256 * bigEndianValue bytes + byte.toNat) / 256 = bigEndianValue bytes := by
        omega
      have hLow : UInt8.ofNat (256 * bigEndianValue bytes + byte.toNat) = byte := by
        apply UInt8.toNat_inj.1
        rw [UInt8.toNat_ofNat']
        omega
      rw [bigEndianValue_concat, List.length_append, List.length_singleton, bigEndian, hHigh, hLow,
        ih]

namespace Decoder

variable {α β : Type}

/-- The reader succeeds exactly on the bytes of a valid value, with that value. -/
def Reads (decoder : Decoder α) (encode : α → List UInt8) (valid : α → Prop) : Prop :=
  ∀ cursor value after, decoder.run cursor = .ok (value, after) ↔
    valid value ∧ cursor.Spans (encode value) after

theorem reads_natural (width : Nat) :
    Reads (natural width) (bigEndian width) (· < 256 ^ width) := by
  intro cursor value after
  simp only [natural, run_bind_eq_ok_iff, run_pure_eq_ok_iff, run_bytes_eq_ok_iff]
  constructor
  · rintro ⟨taken, between, ⟨hLength, hSpans⟩, rfl, rfl⟩
    rw [← hLength, bigEndian_bigEndianValue]
    exact ⟨bigEndianValue_lt taken, hSpans⟩
  · rintro ⟨hValue, hSpans⟩
    exact ⟨_, after, ⟨length_bigEndian width value, hSpans⟩, bigEndianValue_bigEndian hValue, rfl⟩

theorem Reads.renamed {decoder : Decoder α} {encode : α → List UInt8} {valid : α → Prop}
    (hReads : Reads decoder encode valid) {rename : α → β} {original : β → α}
    (hValid : ∀ value, valid (original value))
    (hRename : ∀ value, rename (original value) = value)
    (hOriginal : ∀ value, valid value → original (rename value) = value) :
    Reads (do return rename (← decoder)) (fun value => encode (original value))
      fun _ => True := by
  intro cursor value after
  simp only [run_bind_eq_ok_iff, run_pure_eq_ok_iff, hReads _ _ _]
  constructor
  · rintro ⟨raw, between, ⟨hRaw, hSpans⟩, rfl, rfl⟩
    rw [hOriginal raw hRaw]
    exact ⟨trivial, hSpans⟩
  · rintro ⟨-, hSpans⟩
    exact ⟨original value, after, ⟨hValid value, hSpans⟩, hRename value, rfl⟩

theorem reads_byte : Reads byte (fun value => [value]) fun _ => True := by
  have hReads := (reads_natural 1).renamed UInt8.toNat_lt (fun _ => UInt8.ofNat_toNat)
    fun _ hValue => UInt8.toNat_ofNat_of_lt' hValue
  rw [funext bigEndian_one] at hReads
  exact hReads

theorem reads_short : Reads short (fun value => bigEndian 2 value.toNat) fun _ => True :=
  (reads_natural 2).renamed UInt16.toNat_lt (fun _ => UInt16.ofNat_toNat)
    fun _ hValue => UInt16.toNat_ofNat_of_lt' hValue

theorem reads_word : Reads word (fun value => bigEndian 4 value.toNat) fun _ => True :=
  (reads_natural 4).renamed UInt32.toNat_lt (fun _ => UInt32.ofNat_toNat)
    fun _ hValue => UInt32.toNat_ofNat_of_lt' hValue

theorem reads_doubleWord :
    Reads doubleWord (fun value => bigEndian 8 value.toNat) fun _ => True :=
  (reads_natural 8).renamed UInt64.toNat_lt (fun _ => UInt64.ofNat_toNat)
    fun _ hValue => UInt64.toNat_ofNat_of_lt' hValue

theorem reads_signedWord :
    Reads signedWord (fun value => bigEndian 4 value.toUInt32.toNat) fun _ => True :=
  reads_word.renamed (fun _ => trivial) Int32.toInt32_toUInt32
    fun value _ => UInt32.toUInt32_toInt32 value

theorem reads_signedDoubleWord :
    Reads signedDoubleWord (fun value => bigEndian 8 value.toUInt64.toNat) fun _ => True :=
  reads_doubleWord.renamed (fun _ => trivial) Int64.toInt64_toUInt64
    fun value _ => UInt64.toUInt64_toInt64 value

/-! ### Tables -/

theorem Reads.times {decoder : Decoder α} {encode : α → List UInt8} {valid : α → Prop}
    (hReads : Reads decoder encode valid) (count : Nat) :
    Reads (times decoder count) (List.flatMap encode) fun values =>
      values.length = count ∧ ∀ value ∈ values, valid value := by
  induction count with
  | zero =>
      intro cursor values after
      rw [Decoder.times, run_pure_eq_ok_iff]
      constructor
      · rintro ⟨rfl, rfl⟩
        exact ⟨⟨rfl, List.forall_mem_nil _⟩, Cursor.spans_nil_iff.2 rfl⟩
      · rintro ⟨⟨hLength, -⟩, hSpans⟩
        rw [List.length_eq_zero_iff] at hLength
        subst hLength
        exact ⟨rfl, Cursor.spans_nil_iff.1 hSpans⟩
  | succ count ih =>
      intro cursor values after
      simp only [Decoder.times, run_bind_eq_ok_iff, run_pure_eq_ok_iff, hReads _ _ _, ih _ _ _]
      constructor
      · rintro ⟨first, _, ⟨hFirst, hSpans⟩, rest, _, ⟨⟨hLength, hRest⟩, hSpansRest⟩, rfl, rfl⟩
        rw [List.length_cons, hLength, List.forall_mem_cons, List.flatMap_cons]
        exact ⟨⟨rfl, hFirst, hRest⟩, hSpans.append hSpansRest⟩
      · rintro ⟨⟨hLength, hValues⟩, hSpans⟩
        cases values with
        | nil => cases hLength
        | cons first rest =>
            rw [List.forall_mem_cons] at hValues
            rw [List.flatMap_cons, Cursor.spans_append_iff] at hSpans
            obtain ⟨between, hSpans, hSpansRest⟩ := hSpans
            exact ⟨first, between, ⟨hValues.1, hSpans⟩, rest, after,
              ⟨⟨Nat.succ.inj hLength, hValues.2⟩, hSpansRest⟩, rfl, rfl⟩

theorem Reads.counted {decoder : Decoder α} {encode : α → List UInt8} {valid : α → Prop}
    (hReads : Reads decoder encode valid) :
    Reads (counted decoder) (fun values => bigEndian 2 values.length ++ values.flatMap encode)
      fun values => values.length < UInt16.size ∧ ∀ value ∈ values, valid value := by
  intro cursor values after
  simp only [Decoder.counted, run_bind_eq_ok_iff, reads_short _ _ _, hReads.times _ _ _ _,
    Cursor.spans_append_iff]
  constructor
  · rintro ⟨count, between, ⟨-, hCount⟩, ⟨hLength, hValues⟩, hSpans⟩
    rw [hLength]
    exact ⟨⟨count.toNat_lt, hValues⟩, between, hCount, hSpans⟩
  · rintro ⟨⟨hLength, hValues⟩, between, hCount, hSpans⟩
    have hLast : (UInt16.ofNat values.length).toNat = values.length :=
      UInt16.toNat_ofNat_of_lt' hLength
    refine ⟨UInt16.ofNat values.length, between, ⟨trivial, ?_⟩, ⟨hLast.symm, hValues⟩, hSpans⟩
    rw [hLast]
    exact hCount

end Decoder

end AnnotationDefaults
