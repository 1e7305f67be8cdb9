import AnnotationDefaults.Proofs.Comparison.Differences
import AnnotationDefaults.Proofs.Comparison.Reach
import AnnotationDefaults.Proofs.ConstantPool.Format
import AnnotationDefaults.Proofs.Text.Forms
import AnnotationDefaults.Proofs.Text.Surrogates

set_option autoImplicit false

/-!
What a match of texts tells about the bytes in the pool. A text holds no surrogate that is
unpaired, so a payload that spells one is read as a text with the replacement character there,
and it is that text which is compared. A match therefore means the units of the payload up to
unpaired surrogates, and the very units if there are none.
-/

namespace AnnotationDefaults

/-- The text at the index is what the payload reads as. -/
def ConstantPool.HoldsPayload (pool : ConstantPool) (index : UInt16) (payload : List UInt8) :
    Prop :=
  ∃ text, Constant.decodeText payload = .ok text ∧ pool.utf8 index = .ok text

namespace Comparison

open ModifiedUtf8 (Spells)

variable {pool : ConstantPool} {path token : String} {value : DecodedElement}
  {inner : ExpectedElement} {role : LeafRole} {index : UInt16} {payload : List UInt8}

/-- Strings, descriptors, constant names and type names; other leaves are no texts. -/
def RefersToText : LeafRole → Prop
  | .literal kind => kind = .string
  | .pairName => False
  | _ => True

def leafOutcome (pool : ConstantPool) (path : String) (role : LeafRole) (index : UInt16)
    (token : String) : Outcome :=
  ⟨path, leafDescription role, leafCheck pool role index token⟩

theorem leafOutcome_isMatch_iff :
    (leafOutcome pool path role index token).isMatch = true ↔
      LeafConforms pool role index token := by
  rw [← leafCheck_eq_agreed_iff]
  exact decide_eq_true_iff

theorem leafConforms_iff_utf8 (hText : RefersToText role) :
    LeafConforms pool role index token ↔ pool.utf8 index = .ok token := by
  cases role with
  | literal kind =>
      cases hText
      have hToken : Scalar.ofToken .string token = .ok (.text token) := rfl
      constructor
      · intro hConforms
        obtain ⟨found, wanted, hFound, hWanted, hAgree⟩ := hConforms
        cases hToken.symm.trans hWanted
        obtain ⟨text, hText, rfl⟩ := map_eq_ok_iff.1 hFound
        rw [hText, beq_iff_eq.1 hAgree]
      · intro hFound
        have hResolved : Scalar.resolve pool .string index = .ok (.text token) := by
          rw [Scalar.resolve, hFound]
          rfl
        exact ⟨_, _, hResolved, hToken, beq_self_eq_true token⟩
  | pairName => cases hText
  | _ => exact Iff.rfl

theorem leafOutcome_mem (hIndex : value.leaf? role = some index)
    (hToken : inner.leaf? role = some token) :
    leafOutcome pool path role index token ∈ outcomesAt pool path value inner := by
  unfold Element.leaf? at hToken
  split at hToken
  case h_1 kind kind' wanted =>
    obtain ⟨rfl, hWanted⟩ := Option.ite_none_right_eq_some.1 hToken
    cases hWanted
    cases value with
    | literal kind' found =>
        obtain ⟨rfl, hFound⟩ := Option.ite_none_right_eq_some.1 hIndex
        cases hFound
        simp [outcomesAt, leafOutcome, literalOutcome, leafDescription, leafCheck]
    | _ => cases hIndex
  case h_2 typeName constantName =>
    cases hToken
    cases value with
    | enumConstant typeIndex constantIndex =>
        cases hIndex
        exact List.mem_cons_of_mem _ List.mem_cons_self
    | _ => cases hIndex
  case h_3 typeName constantName =>
    cases hToken
    cases value with
    | enumConstant typeIndex constantIndex =>
        cases hIndex
        exact List.mem_cons_of_mem _ (List.mem_cons_of_mem _ List.mem_cons_self)
    | _ => cases hIndex
  case h_4 descriptor =>
    cases hToken
    cases value with
    | classLiteral found =>
        cases hIndex
        exact List.mem_cons_of_mem _ List.mem_cons_self
    | _ => cases hIndex
  case h_5 typeName wanted =>
    cases hToken
    cases value with
    | annotationValue typeIndex pairs =>
        cases hIndex
        rw [outcomesAt]
        exact List.mem_cons_of_mem _ List.mem_cons_self
    | _ => cases hIndex
  case h_6 => cases hToken

/-- The outcome of a leaf that refers to a text is on record at the path of its value. It is a
match exactly if the token has the units of the payload, with the replacement character's for
every surrogate that is unpaired; and then it has the units of the payload themselves exactly
if no surrogate is unpaired. -/
theorem text_match_iff_units (pool : ConstantPool) (node : DecodedElement)
    (expected : ExpectedElement) (steps : List Step) (value : DecodedElement)
    (inner : ExpectedElement) (role : LeafRole) (index : UInt16) (token : String)
    (payload : List UInt8) (hReached : Reaches pool node expected steps value inner)
    (hText : RefersToText role) (hIndex : value.leaf? role = some index)
    (hToken : inner.leaf? role = some token) (hPayload : pool.HoldsPayload index payload) :
    let outcome := leafOutcome pool (Step.pathFrom Outcome.rootPath steps) role index token
    outcome ∈ outcomes pool node expected ∧
      ∃ units, Spells payload units ∧
        (outcome.isMatch = true ↔ Utf16.encode token.toList = Utf16.repaired units) ∧
        (outcome.isMatch = true →
          (Utf16.encode token.toList = units ↔ ∀ place, ¬ Utf16.IsUnpaired units place)) := by
  intro outcome
  obtain ⟨text, hRead, hHeld⟩ := hPayload
  obtain ⟨units, hSpells, hUnits⟩ := ModifiedUtf8.decodeText_eq_ok_iff.1 hRead
  have hMatch : outcome.isMatch = true ↔ Utf16.encode token.toList = Utf16.repaired units := by
    calc outcome.isMatch = true
        ↔ pool.utf8 index = .ok token :=
          leafOutcome_isMatch_iff.trans (leafConforms_iff_utf8 hText)
      _ ↔ text = token := by rw [hHeld, Except.ok.injEq]
      _ ↔ Utf16.decode units = token.toList := by
          rw [← hUnits, ← String.toList_inj, String.toList_ofList]
      _ ↔ Utf16.encode token.toList = Utf16.repaired units := Utf16.decode_eq_iff
  refine ⟨?_, units, hSpells, hMatch, ?_⟩
  · exact (outcomesAt_infix_of_reaches hReached).subset (leafOutcome_mem hIndex hToken)
  · intro hMatched
    rw [hMatch.1 hMatched, Utf16.repaired_eq_self_iff]

/-- A class descriptor inside an array, read from a letter, a pair of surrogates and the first
half of a pair. -/
theorem text_match_iff_units_descriptor :
    let payload : List UInt8 := [0x61, 0xed, 0xa0, 0xbd, 0xed, 0xb8, 0x80, 0xed, 0xa0, 0x80]
    let token := String.ofList ['a', Char.ofNat 0x1f600, '\ufffd']
    let pool : ConstantPool := .ofSlots [some (.utf8 token)]
    let node : DecodedElement := .array [.classLiteral 1]
    let expected : ExpectedElement := .array [.classLiteral token]
    Reaches pool node expected [.item 0] (.classLiteral 1) (.classLiteral token) ∧
      pool.HoldsPayload 1 payload ∧
      ⟨"default[0]", "check class descriptor", .agreed⟩ ∈ outcomes pool node expected ∧
      ∃ units, Spells payload units ∧ Utf16.encode token.toList = Utf16.repaired units := by
  intro payload token pool node expected
  have hReached : Reaches pool node expected [.item 0] (.classLiteral 1) (.classLiteral token) :=
    .inside (.item rfl rfl rfl) (.here _ _)
  have hPayload : pool.HoldsPayload 1 payload := ⟨token, by decide, rfl⟩
  obtain ⟨hMem, units, hSpells, hMatch, -⟩ := text_match_iff_units _ _ _ _ _ _ .classDescriptor 1
    token payload hReached trivial rfl rfl hPayload
  exact ⟨hReached, hPayload, hMem, units, hSpells, hMatch.1 (by decide)⟩

/-- A lone half of a pair is read as the replacement character, and a string of it matches the
token of that character, which has other units. -/
theorem text_match_of_unpaired :
    let payload : List UInt8 := [0xed, 0xa0, 0x80]
    let token := String.ofList ['\ufffd']
    ∃ pool after,
      ConstantPool.decode.run (.ofBytes ([0, 2] ++ Constant.textRecord payload)) =
          .ok (pool, after) ∧
        pool.HoldsPayload 1 payload ∧ Spells payload [0xd800] ∧
        (∀ outcome ∈ outcomes pool (.literal .string 1) (.literal .string token),
          outcome.isMatch = true) ∧
        Utf16.encode token.toList ≠ [0xd800] := by
  intro payload token
  have hSpells : Spells payload [0xd800] := (ModifiedUtf8.decodeUnits_eq_ok_iff 0).1 (by decide)
  exact ⟨.ofSlots [some (.utf8 token)], ⟨8, []⟩, by decide, ⟨token, by decide, rfl⟩, hSpells,
    by decide, by decide⟩

end Comparison

end AnnotationDefaults
