import AnnotationDefaults.ClassFile.Format
import AnnotationDefaults.Proofs.Element.Size

set_option autoImplicit false

/-!
What is read as a class file. Attributes and members are read from exactly their own
bytes, so the declared length of an attribute that was read is the length of its contents;
a whole class file is read from its bytes around a pool. A default that leaves none of its
contents over is exactly as long as its value.
-/

namespace AnnotationDefaults

open Decoder (Reads run_bind_eq_ok_iff run_pure_eq_ok_iff run_bytes_eq_ok_iff reads_short
  reads_word)

def Attribute.IsBounded (entry : Attribute) : Prop := entry.info.length < UInt32.size

theorem Attribute.declaredLength_of_isBounded {entry : Attribute} (hBounded : entry.IsBounded) :
    entry.declaredLength = entry.info.length :=
  Nat.mod_eq_of_lt hBounded

theorem Attribute.reads_decode : Reads decode encode IsBounded := by
  intro cursor entry after
  simp only [decode, encode, run_bind_eq_ok_iff, run_pure_eq_ok_iff, run_bytes_eq_ok_iff,
    reads_short _ _ _, reads_word _ _ _, Cursor.spans_append_iff]
  constructor
  · rintro ⟨name, named, ⟨-, hName⟩, length, measured, ⟨-, hLength⟩, info, _, ⟨hCount, hInfo⟩,
      rfl, rfl⟩
    refine ⟨hCount.trans_lt length.toNat_lt, measured, ⟨named, hName, ?_⟩, hInfo⟩
    rw [hCount]
    exact hLength
  · rintro ⟨hBounded, measured, ⟨named, hName, hLength⟩, hInfo⟩
    have hCount : (UInt32.ofNat entry.info.length).toNat = entry.info.length :=
      UInt32.toNat_ofNat_of_lt' hBounded
    rw [← hCount] at hLength
    exact ⟨entry.nameIndex, named, ⟨trivial, hName⟩, UInt32.ofNat entry.info.length, measured,
      ⟨trivial, hLength⟩, entry.info, after, ⟨hCount.symm, hInfo⟩, rfl, rfl⟩

namespace Member

def IsBounded (member : Member) : Prop :=
  member.attributes.length < UInt16.size ∧ ∀ entry ∈ member.attributes, entry.IsBounded

theorem encode_eq (member : Member) :
    encode member = bigEndian 2 member.accessFlags.toNat ++ (bigEndian 2 member.nameIndex.toNat ++
      (bigEndian 2 member.descriptorIndex.toNat ++
        (bigEndian 2 member.attributes.length ++ member.attributes.flatMap Attribute.encode))) := by
  simp only [encode, List.append_assoc]

theorem reads_decode : Reads decode encode IsBounded := by
  intro cursor member after
  rw [encode_eq]
  simp only [decode, run_bind_eq_ok_iff, run_pure_eq_ok_iff, reads_short _ _ _,
    Attribute.reads_decode.counted _ _ _]
  constructor
  · rintro ⟨flags, flagged, ⟨-, hFlags⟩, name, named, ⟨-, hName⟩, descriptor, described,
      ⟨-, hDescriptor⟩, attributes, _, ⟨hBounded, hAttributes⟩, rfl, rfl⟩
    exact ⟨hBounded, hFlags.append (hName.append (hDescriptor.append hAttributes))⟩
  · rintro ⟨hBounded, hSpans⟩
    obtain ⟨flagged, hFlags, hSpans⟩ := Cursor.spans_append_iff.1 hSpans
    obtain ⟨named, hName, hSpans⟩ := Cursor.spans_append_iff.1 hSpans
    obtain ⟨described, hDescriptor, hAttributes⟩ := Cursor.spans_append_iff.1 hSpans
    exact ⟨_, flagged, ⟨trivial, hFlags⟩, _, named, ⟨trivial, hName⟩, _, described,
      ⟨trivial, hDescriptor⟩, _, after, ⟨hBounded, hAttributes⟩, rfl, rfl⟩

end Member

namespace ClassFile

def encodeHead (file : ClassFile) : List UInt8 :=
  bigEndian 4 magic.toNat ++ (bigEndian 2 file.minorVersion.toNat ++
    bigEndian 2 file.majorVersion.toNat)

def encodeBody (file : ClassFile) : List UInt8 :=
  bigEndian 2 file.accessFlags.toNat ++ (bigEndian 2 file.thisClass.toNat ++
    (bigEndian 2 file.superClass.toNat ++
      (encodeTable (fun index : UInt16 => bigEndian 2 index.toNat) file.interfaces ++
        (encodeTable Member.encode file.fields ++ (encodeTable Member.encode file.methods ++
          encodeTable Attribute.encode file.attributes)))))

theorem encode_eq (file : ClassFile) :
    file.encode = file.encodeHead ++ (file.pool.encode ++ file.encodeBody) := by
  simp only [encode, encodeHead, encodeBody, List.append_assoc]

/-- Every table behind the pool is counted by a two-byte number, and every attribute has a
four-byte length. -/
structure IsBounded (file : ClassFile) : Prop where
  interfaces : file.interfaces.length < UInt16.size
  fields : file.fields.length < UInt16.size ∧ ∀ member ∈ file.fields, member.IsBounded
  methods : file.methods.length < UInt16.size ∧ ∀ member ∈ file.methods, member.IsBounded
  attributes : file.attributes.length < UInt16.size ∧
    ∀ entry ∈ file.attributes, entry.IsBounded

/-- A class file is read from its own bytes, but for its pool, which its reader decides. -/
theorem run_decode_iff {cursor after : Cursor} {file : ClassFile} :
    decode.run cursor = .ok (file, after) ↔ file.IsBounded ∧
      ∃ headed pooled, cursor.Spans file.encodeHead headed ∧
        ConstantPool.decode.run headed = .ok (file.pool, pooled) ∧
        pooled.Spans file.encodeBody after := by
  constructor
  · intro hRun
    obtain ⟨found, checked, hFound, hRun⟩ := run_bind_eq_ok_iff.1 hRun
    by_cases hMagic : found = magic
    · subst hMagic
      obtain ⟨minorVersion, minor, hMinor, hRun⟩ := run_bind_eq_ok_iff.1 hRun
      obtain ⟨majorVersion, headed, hMajor, hRun⟩ := run_bind_eq_ok_iff.1 hRun
      obtain ⟨pool, pooled, hPool, hRun⟩ := run_bind_eq_ok_iff.1 hRun
      simp only [run_bind_eq_ok_iff, run_pure_eq_ok_iff, reads_short _ _ _,
        reads_short.counted _ _ _, Member.reads_decode.counted _ _ _,
        Attribute.reads_decode.counted _ _ _] at hRun
      obtain ⟨accessFlags, flagged, ⟨-, hFlags⟩, thisClass, _, ⟨-, hThis⟩, superClass, _,
        ⟨-, hSuper⟩, interfaces, _, ⟨⟨hInterfaceCount, -⟩, hInterfaces⟩, fields, _,
        ⟨hFieldsBounded, hFields⟩, methods, _, ⟨hMethodsBounded, hMethods⟩, attributes, _,
        ⟨hAttributesBounded, hAttributes⟩, rfl, rfl⟩ := hRun
      refine ⟨⟨hInterfaceCount, hFieldsBounded, hMethodsBounded, hAttributesBounded⟩, headed,
        pooled, ?_, hPool, ?_⟩
      · exact ((reads_word _ _ _).1 hFound).2.append
          (((reads_short _ _ _).1 hMinor).2.append ((reads_short _ _ _).1 hMajor).2)
      · exact hFlags.append (hThis.append (hSuper.append (hInterfaces.append
          (hFields.append (hMethods.append hAttributes)))))
    · dsimp only at hRun
      rw [if_pos hMagic] at hRun
      cases hRun
  · rintro ⟨hBounded, headed, pooled, hHead, hPool, hBody⟩
    obtain ⟨checked, hMagic, hSpans⟩ := Cursor.spans_append_iff.1 hHead
    obtain ⟨minor, hMinor, hMajor⟩ := Cursor.spans_append_iff.1 hSpans
    obtain ⟨flagged, hFlags, hSpans⟩ := Cursor.spans_append_iff.1 hBody
    obtain ⟨this, hThis, hSpans⟩ := Cursor.spans_append_iff.1 hSpans
    obtain ⟨super, hSuper, hSpans⟩ := Cursor.spans_append_iff.1 hSpans
    obtain ⟨implemented, hInterfaces, hSpans⟩ := Cursor.spans_append_iff.1 hSpans
    obtain ⟨fielded, hFields, hSpans⟩ := Cursor.spans_append_iff.1 hSpans
    obtain ⟨declared, hMethods, hAttributes⟩ := Cursor.spans_append_iff.1 hSpans
    refine run_bind_eq_ok_iff.2 ⟨magic, checked, (reads_word _ _ _).2 ⟨trivial, hMagic⟩, ?_⟩
    refine run_bind_eq_ok_iff.2 ⟨_, minor, (reads_short _ _ _).2 ⟨trivial, hMinor⟩, ?_⟩
    refine run_bind_eq_ok_iff.2 ⟨_, headed, (reads_short _ _ _).2 ⟨trivial, hMajor⟩, ?_⟩
    refine run_bind_eq_ok_iff.2 ⟨_, pooled, hPool, ?_⟩
    simp only [run_bind_eq_ok_iff, run_pure_eq_ok_iff, reads_short _ _ _, reads_short.counted _ _ _,
      Member.reads_decode.counted _ _ _, Attribute.reads_decode.counted _ _ _]
    exact ⟨_, flagged, ⟨trivial, hFlags⟩, _, this, ⟨trivial, hThis⟩, _, super,
      ⟨trivial, hSuper⟩, _, implemented, ⟨⟨hBounded.interfaces, fun _ _ => trivial⟩, hInterfaces⟩,
      _, fielded, ⟨hBounded.fields, hFields⟩, _, declared, ⟨hBounded.methods, hMethods⟩,
      _, after, ⟨hBounded.attributes, hAttributes⟩, rfl, rfl⟩

theorem isBounded_of_ofBytes {bytes : List UInt8} {file : ClassFile}
    (hFile : ofBytes bytes = .ok file) {member : Member} (hMember : member ∈ file.methods)
    {entry : Attribute} (hEntry : entry ∈ member.attributes) : entry.IsBounded := by
  obtain ⟨⟨decoded, after⟩, hRun, rfl⟩ := map_eq_ok_iff.1 hFile
  exact ((run_decode_iff.1 hRun).1.methods.2 member hMember).2 entry hEntry

end ClassFile

/-- The attribute's contents are one value with no byte left over. -/
def Attribute.Holds (entry : Attribute) (value : DecodedElement) : Prop :=
  ∃ after, Element.decode.run (Cursor.ofBytes entry.info) = .ok (value, after) ∧ after.rest = []

namespace AnnotationDefault

theorem ofAttribute_eq_ok_of_holds {entry : Attribute} {value : DecodedElement}
    (hHolds : entry.Holds value) :
    ofAttribute entry = .ok ⟨entry.nameIndex, entry.declaredLength, value⟩ := by
  rcases hHolds with ⟨after, hRun, -⟩
  rw [ofAttribute, hRun]
  rfl

theorem encodedSize_of_holds {entry : Attribute} {value : DecodedElement}
    (hHolds : entry.Holds value) (hBounded : entry.IsBounded) :
    value.encodedSize = entry.declaredLength := by
  rcases hHolds with ⟨after, hRun, hRest⟩
  obtain ⟨-, hBytes, -⟩ := (Element.reads_decodeWithin _ _ _ _).1 hRun
  rw [hRest, List.append_nil] at hBytes
  rw [Attribute.declaredLength_of_isBounded hBounded, ← Element.length_encode, ← hBytes]
  rfl

end AnnotationDefault

end AnnotationDefaults
