import AnnotationDefaults.ConstantPool.Format
import AnnotationDefaults.Proofs.Text.ModifiedUtf8
import Mathlib.Order.Bounds.Basic

set_option autoImplicit false

/-!
Which byte strings are texts of a class file. A payload spells units if it is a concatenation
of forms, each the bytes of one unit, overlong forms included. Exactly such payloads are
read, as the units that they spell. Any other byte string is refused at the end of its
longest prefix that some payload continues: before the first byte that cannot follow, or
behind the last byte if more of them are needed.
-/

namespace AnnotationDefaults.ModifiedUtf8

/-- The bytes of one unit, with its value. -/
inductive SpellsUnit : List UInt8 → Nat → Prop
  | one {lead : UInt8} (hLead : 0x01 ≤ lead.toNat ∧ lead.toNat ≤ 0x7f) :
      SpellsUnit [lead] lead.toNat
  | two {lead low : UInt8} (hLead : 0xc0 ≤ lead.toNat ∧ lead.toNat ≤ 0xdf)
      (hLow : IsContinuation low) :
      SpellsUnit [lead, low] ((lead.toNat - 0xc0) * 0x40 + (low.toNat - 0x80))
  | three {lead mid low : UInt8} (hLead : 0xe0 ≤ lead.toNat ∧ lead.toNat ≤ 0xef)
      (hMid : IsContinuation mid) (hLow : IsContinuation low) :
      SpellsUnit [lead, mid, low]
        ((lead.toNat - 0xe0) * 0x1000 + (mid.toNat - 0x80) * 0x40 + (low.toNat - 0x80))

/-- The payload is the forms of the units, one behind the other. -/
inductive Spells : List UInt8 → List UInt16 → Prop
  | nil : Spells [] []
  | append {form rest : List UInt8} {unit : UInt16} {units : List UInt16}
      (hForm : SpellsUnit form unit.toNat) (hRest : Spells rest units) :
      Spells (form ++ rest) (unit :: units)

def IsPayload (payload : List UInt8) : Prop := ∃ units, Spells payload units

variable {lead mid low : UInt8} {form rest payload : List UInt8} {units : List UInt16}
  {value offset place length : Nat}

/-! ### Leading bytes -/

theorem form?_eq_one_iff : form? lead = some .one ↔ 0x01 ≤ lead.toNat ∧ lead.toNat ≤ 0x7f := by
  unfold form?
  dsimp only
  split_ifs with hOne hTwo hThree
  · simp [hOne]
  · simp [hOne]
  · simp [hOne]
  · simp [hOne]

theorem form?_eq_two_iff : form? lead = some .two ↔ 0xc0 ≤ lead.toNat ∧ lead.toNat ≤ 0xdf := by
  unfold form?
  dsimp only
  split_ifs with hOne hTwo hThree
  · simp; omega
  · simp [hTwo]
  · simp [hTwo]
  · simp [hTwo]

theorem form?_eq_three_iff :
    form? lead = some .three ↔ 0xe0 ≤ lead.toNat ∧ lead.toNat ≤ 0xef := by
  unfold form?
  dsimp only
  split_ifs with hOne hTwo hThree
  · simp; omega
  · simp; omega
  · simp [hThree]
  · simp [hThree]

/-! ### Forms are read as their units -/

theorem SpellsUnit.lt (hForm : SpellsUnit form value) : value < 0x10000 := by
  cases hForm with
  | one hLead => omega
  | two hLead hLow =>
      unfold IsContinuation at hLow
      omega
  | three hLead hMid hLow =>
      unfold IsContinuation at hMid hLow
      omega

theorem unitOfTwo_eq (hLead : 0xc0 ≤ lead.toNat ∧ lead.toNat ≤ 0xdf) (hLow : IsContinuation low) :
    unitOfTwo lead low = UInt16.ofNat ((lead.toNat - 0xc0) * 0x40 + (low.toNat - 0x80)) := by
  unfold IsContinuation at hLow
  have hSame : lead.toNat % 32 * 64 + low.toNat % 64 =
      (lead.toNat - 0xc0) * 0x40 + (low.toNat - 0x80) := by
    omega
  rw [unitOfTwo, hSame]

theorem unitOfThree_eq (hLead : 0xe0 ≤ lead.toNat ∧ lead.toNat ≤ 0xef)
    (hMid : IsContinuation mid) (hLow : IsContinuation low) :
    unitOfThree lead mid low = UInt16.ofNat
      ((lead.toNat - 0xe0) * 0x1000 + (mid.toNat - 0x80) * 0x40 + (low.toNat - 0x80)) := by
  unfold IsContinuation at hMid hLow
  have hSame : lead.toNat % 16 * 4096 + mid.toNat % 64 * 64 + low.toNat % 64 =
      (lead.toNat - 0xe0) * 0x1000 + (mid.toNat - 0x80) * 0x40 + (low.toNat - 0x80) := by
    omega
  rw [unitOfThree, hSame]

theorem decodeUnits_append (hForm : SpellsUnit form value) (offset : Nat) (rest : List UInt8) :
    decodeUnits offset (form ++ rest) =
      (decodeUnits (offset + form.length) rest).map (UInt16.ofNat value :: ·) := by
  cases hForm with
  | one hLead =>
      rw [List.singleton_append, decodeUnits.eq_def]
      simp only [form?_eq_one_iff.2 hLead, List.length_singleton]
  | two hLead hLow =>
      rw [List.cons_append, List.singleton_append, decodeUnits, form?_eq_two_iff.2 hLead]
      dsimp only
      rw [if_pos hLow, unitOfTwo_eq hLead hLow]
      rfl
  | three hLead hMid hLow =>
      rw [List.cons_append, List.cons_append, List.singleton_append, decodeUnits,
        form?_eq_three_iff.2 hLead]
      dsimp only
      rw [if_pos hMid, if_pos hLow, unitOfThree_eq hLead hMid hLow]
      rfl

theorem decodeUnits_of_spells (hSpells : Spells payload units) (offset : Nat) :
    decodeUnits offset payload = .ok units := by
  induction hSpells generalizing offset with
  | nil => rfl
  | append hForm hRest ih =>
      rw [decodeUnits_append hForm, ih, UInt16.ofNat_toNat]
      rfl

theorem Spells.cons (hForm : SpellsUnit form value) (hRest : Spells rest units) :
    Spells (form ++ rest) (UInt16.ofNat value :: units) := by
  apply Spells.append _ hRest
  rw [UInt16.toNat_ofNat_of_lt' hForm.lt]
  exact hForm

theorem spells_of_decodeUnits (hUnits : decodeUnits offset payload = .ok units) :
    Spells payload units := by
  fun_induction decodeUnits offset payload generalizing units with
  | case1 offset =>
      cases hUnits
      exact .nil
  | case3 offset lead rest hForm ih =>
      obtain ⟨others, hRest, rfl⟩ := map_eq_ok_iff.1 hUnits
      exact .cons (.one (form?_eq_one_iff.1 hForm)) (ih hRest)
  | case5 offset lead hForm low rest hLow ih =>
      obtain ⟨others, hRest, rfl⟩ := map_eq_ok_iff.1 hUnits
      have hLead := form?_eq_two_iff.1 hForm
      rw [unitOfTwo_eq hLead hLow]
      exact .cons (.two hLead hLow) (ih hRest)
  | case9 offset lead hForm mid low rest hMid hLow ih =>
      obtain ⟨others, hRest, rfl⟩ := map_eq_ok_iff.1 hUnits
      have hLead := form?_eq_three_iff.1 hForm
      rw [unitOfThree_eq hLead hMid hLow]
      exact .cons (.three hLead hMid hLow) (ih hRest)
  | _ => cases hUnits

theorem decodeUnits_eq_ok_iff (offset : Nat) :
    decodeUnits offset payload = .ok units ↔ Spells payload units :=
  ⟨spells_of_decodeUnits, fun hSpells => decodeUnits_of_spells hSpells offset⟩

theorem isPayload_iff_decodeUnits (offset : Nat) :
    IsPayload payload ↔ ∃ units, decodeUnits offset payload = .ok units := by
  simp only [decodeUnits_eq_ok_iff, IsPayload]

theorem isPayload_append_iff (hForm : SpellsUnit form value) :
    IsPayload (form ++ rest) ↔ IsPayload rest := by
  -- No form is the beginning of another one, so the reader takes off this one.
  rw [isPayload_iff_decodeUnits 0, isPayload_iff_decodeUnits (0 + form.length),
    decodeUnits_append hForm]
  simp only [map_eq_ok_iff]
  constructor
  · intro hGiven
    obtain ⟨_, units, hUnits, -⟩ := hGiven
    exact ⟨units, hUnits⟩
  · intro hGiven
    obtain ⟨units, hUnits⟩ := hGiven
    exact ⟨_, units, hUnits, rfl⟩

/-! ### Where reading stops -/

/-- Some payload begins with the bytes. -/
def IsExtendable (bytes : List UInt8) : Prop := ∃ more, IsPayload (bytes ++ more)

/-- The longest beginning of the bytes that some payload continues has the length. -/
structure StopsAt (bytes : List UInt8) (length : Nat) : Prop where
  within : length ≤ bytes.length
  extendable : IsExtendable (bytes.take length)
  stuck : length < bytes.length → ¬ IsExtendable (bytes.take (length + 1))

theorem StopsAt.append (hForm : SpellsUnit form value) (hRest : StopsAt rest length) :
    StopsAt (form ++ rest) (form.length + length) := by
  have hTake (count : Nat) :
      IsExtendable ((form ++ rest).take (form.length + count)) ↔
        IsExtendable (rest.take count) := by
    simp only [List.take_length_add_append, IsExtendable, List.append_assoc,
      isPayload_append_iff hForm]
  constructor
  · rw [List.length_append]
    exact Nat.add_le_add_left hRest.within _
  · exact (hTake length).2 hRest.extendable
  · intro hLess
    rw [List.length_append] at hLess
    rw [Nat.add_assoc, hTake]
    exact hRest.stuck (Nat.lt_of_add_lt_add_left hLess)

theorem not_isExtendable {bytes : List UInt8}
    (hFails : ∀ more, ∃ place, decodeUnits 0 (bytes ++ more) = .error place) :
    ¬ IsExtendable bytes := by
  intro hExtendable
  obtain ⟨more, hPayload⟩ := hExtendable
  obtain ⟨units, hUnits⟩ := (isPayload_iff_decodeUnits 0).1 hPayload
  obtain ⟨place, hPlace⟩ := hFails more
  cases hUnits.symm.trans hPlace

theorem isContinuation_least : IsContinuation 0x80 := by decide

theorem isExtendable_lead {form : Form} (hForm : form? lead = some form) :
    IsExtendable [lead] := by
  have hNone : IsPayload [] := ⟨[], .nil⟩
  cases form with
  | one => exact ⟨[], (isPayload_append_iff (.one (form?_eq_one_iff.1 hForm))).2 hNone⟩
  | two =>
      have hUnit := SpellsUnit.two (form?_eq_two_iff.1 hForm) isContinuation_least
      exact ⟨[0x80], (isPayload_append_iff hUnit).2 hNone⟩
  | three =>
      have hUnit := SpellsUnit.three (form?_eq_three_iff.1 hForm) isContinuation_least
        isContinuation_least
      exact ⟨[0x80, 0x80], (isPayload_append_iff hUnit).2 hNone⟩

theorem isExtendable_mid (hForm : form? lead = some .three) (hMid : IsContinuation mid) :
    IsExtendable [lead, mid] := by
  have hUnit := SpellsUnit.three (form?_eq_three_iff.1 hForm) hMid isContinuation_least
  exact ⟨[0x80], (isPayload_append_iff hUnit).2 ⟨[], .nil⟩⟩

theorem stopsAt_lead (hForm : form? lead = none) : StopsAt (lead :: rest) 0 := by
  have hStuck : ¬ IsExtendable [lead] := by
    apply not_isExtendable
    intro more
    exact ⟨0, by simp only [decodeUnits.eq_def, List.singleton_append, hForm]⟩
  exact ⟨Nat.zero_le _, ⟨[], [], .nil⟩, fun _ => hStuck⟩

theorem stopsAt_second {form : Form} (hForm : form? lead = some form) (hMany : form ≠ .one)
    (hNext : ∀ next ∈ rest.head?, ¬ IsContinuation next) : StopsAt (lead :: rest) 1 := by
  refine ⟨Nat.succ_le_succ (Nat.zero_le _), isExtendable_lead hForm, ?_⟩
  cases rest with
  | nil =>
      intro hLess
      exact absurd hLess (Nat.lt_irrefl _)
  | cons next rest =>
      intro _
      have hNot : ¬ IsContinuation next := hNext next rfl
      apply not_isExtendable
      intro more
      cases form with
      | one => exact absurd rfl hMany
      | two => exact ⟨1, by simp [decodeUnits, hForm, hNot]⟩
      | three =>
          cases more with
          | nil => exact ⟨1, by simp [decodeUnits, hForm, hNot]⟩
          | cons low more => exact ⟨1, by simp [decodeUnits, hForm, hNot]⟩

theorem stopsAt_third (hForm : form? lead = some .three) (hMid : IsContinuation mid)
    (hNext : ∀ next ∈ rest.head?, ¬ IsContinuation next) : StopsAt (lead :: mid :: rest) 2 := by
  refine ⟨Nat.succ_le_succ (Nat.succ_le_succ (Nat.zero_le _)), isExtendable_mid hForm hMid, ?_⟩
  cases rest with
  | nil =>
      intro hLess
      exact absurd hLess (Nat.lt_irrefl _)
  | cons next rest =>
      intro _
      have hNot : ¬ IsContinuation next := hNext next rfl
      apply not_isExtendable
      intro more
      exact ⟨2, by simp [decodeUnits, hForm, hMid, hNot]⟩

theorem exists_stopsAt_append (hForm : SpellsUnit form value)
    (hRest : ∃ length, place = offset + form.length + length ∧ StopsAt rest length) :
    ∃ length, place = offset + length ∧ StopsAt (form ++ rest) length := by
  obtain ⟨length, hPlace, hStops⟩ := hRest
  exact ⟨form.length + length, hPlace.trans (Nat.add_assoc _ _ _), hStops.append hForm⟩

theorem stopsAt_of_decodeUnits (hFailed : decodeUnits offset payload = .error place) :
    ∃ length, place = offset + length ∧ StopsAt payload length := by
  -- A form that was read moves the place where the rest stops; every other case stops at once.
  fun_induction decodeUnits offset payload with
  | case1 offset => cases hFailed
  | case2 offset lead rest hForm =>
      cases hFailed
      exact ⟨0, rfl, stopsAt_lead hForm⟩
  | case3 offset lead rest hForm ih =>
      have hUnit := SpellsUnit.one (form?_eq_one_iff.1 hForm)
      exact exists_stopsAt_append hUnit (ih (map_eq_error_iff.1 hFailed))
  | case4 offset lead hForm =>
      cases hFailed
      exact ⟨1, rfl, stopsAt_second hForm (by decide) (by simp)⟩
  | case5 offset lead hForm low rest hLow ih =>
      have hUnit := SpellsUnit.two (form?_eq_two_iff.1 hForm) hLow
      exact exists_stopsAt_append hUnit (ih (map_eq_error_iff.1 hFailed))
  | case6 offset lead hForm low rest hLow =>
      cases hFailed
      exact ⟨1, rfl, stopsAt_second hForm (by decide) (by simpa using hLow)⟩
  | case7 offset lead hForm =>
      cases hFailed
      exact ⟨1, rfl, stopsAt_second hForm (by decide) (by simp)⟩
  | case8 offset lead hForm mid =>
      by_cases hMid : IsContinuation mid
      · rw [if_pos hMid] at hFailed
        cases hFailed
        exact ⟨2, rfl, stopsAt_third hForm hMid (by simp)⟩
      · rw [if_neg hMid] at hFailed
        cases hFailed
        exact ⟨1, rfl, stopsAt_second hForm (by decide) (by simpa using hMid)⟩
  | case9 offset lead hForm mid low rest hMid hLow ih =>
      have hUnit := SpellsUnit.three (form?_eq_three_iff.1 hForm) hMid hLow
      exact exists_stopsAt_append hUnit (ih (map_eq_error_iff.1 hFailed))
  | case10 offset lead hForm mid low rest hMid hLow =>
      cases hFailed
      exact ⟨2, rfl, stopsAt_third hForm hMid (by simpa using hLow)⟩
  | case11 offset lead hForm mid low rest hMid =>
      cases hFailed
      exact ⟨1, rfl, stopsAt_second hForm (by decide) (by simpa using hMid)⟩

/-! ### Texts of the class file -/

def extendableLengths (bytes : List UInt8) : Set Nat :=
  {length | length ≤ bytes.length ∧ IsExtendable (bytes.take length)}

theorem StopsAt.isGreatest (hStops : StopsAt payload length) :
    IsGreatest (extendableLengths payload) length := by
  constructor
  · exact ⟨hStops.within, hStops.extendable⟩
  · intro other hOther
    obtain ⟨hWithin, more, hPayload⟩ := hOther
    by_contra hLonger
    have hLess : length + 1 ≤ other := Nat.not_le.1 hLonger
    have hBegin : (payload.take other).take (length + 1) = payload.take (length + 1) := by
      rw [List.take_take, Nat.min_eq_left hLess]
    rw [← List.take_append_drop (length + 1) (payload.take other), hBegin,
      List.append_assoc] at hPayload
    exact hStops.stuck (hLess.trans hWithin) ⟨_, hPayload⟩

theorem decodeText_eq_ok_iff {text : String} :
    Constant.decodeText payload = .ok text ↔
      ∃ units, Spells payload units ∧ String.ofList (Utf16.decode units) = text := by
  unfold Constant.decodeText decode
  simp only [← decodeUnits_eq_ok_iff 0]
  cases decodeUnits 0 payload with
  | error place => simp [Except.map]
  | ok units => simp [Except.map]

theorem exists_of_decodeText_error {fault : Fault}
    (hFailed : Constant.decodeText payload = .error fault) :
    ∃ offset, fault = .malformedText offset ∧ StopsAt payload offset := by
  unfold Constant.decodeText decode at hFailed
  cases hUnits : decodeUnits 0 payload with
  | ok units =>
      rw [hUnits] at hFailed
      cases hFailed
  | error place =>
      rw [hUnits] at hFailed
      cases hFailed
      obtain ⟨length, hPlace, hStops⟩ := stopsAt_of_decodeUnits hUnits
      rw [Nat.zero_add] at hPlace
      exact ⟨place, rfl, hPlace ▸ hStops⟩

theorem exists_decodeText_iff :
    (∃ text, Constant.decodeText payload = .ok text) ↔ IsPayload payload := by
  simp only [decodeText_eq_ok_iff]
  constructor
  · intro hGiven
    obtain ⟨text, units, hUnits, -⟩ := hGiven
    exact ⟨units, hUnits⟩
  · intro hGiven
    obtain ⟨units, hUnits⟩ := hGiven
    exact ⟨_, units, hUnits, rfl⟩

/-- Every text is read back from its modified form, and what is read are exactly the
concatenations of forms. Any other byte string is refused with the length of its longest
beginning that such a concatenation continues. -/
theorem decodeText_exactly_payloads :
    (∀ content : String, Constant.decodeText (encode content) = .ok content) ∧
    ∀ payload : List UInt8,
      ((∃ text, Constant.decodeText payload = .ok text) ↔ IsPayload payload) ∧
      ∀ fault, Constant.decodeText payload = .error fault ↔
        ¬ IsPayload payload ∧
          ∃ offset, fault = .malformedText offset ∧
            IsGreatest (extendableLengths payload) offset := by
  constructor
  · intro content
    rw [Constant.decodeText, decode_encode]
  · intro payload
    constructor
    · exact exists_decodeText_iff
    · intro fault
      rw [← exists_decodeText_iff]
      constructor
      · intro hFailed
        obtain ⟨offset, hFault, hStops⟩ := exists_of_decodeText_error hFailed
        simp only [hFailed]
        exact ⟨by simp, offset, hFault, hStops.isGreatest⟩
      · intro hGiven
        obtain ⟨hNone, offset, rfl, hGreatest⟩ := hGiven
        cases hRead : Constant.decodeText payload with
        | ok text => exact absurd ⟨text, hRead⟩ hNone
        | error found =>
            obtain ⟨place, rfl, hStops⟩ := exists_of_decodeText_error hRead
            rw [hGreatest.unique hStops.isGreatest]

/-- A lead without all its bytes is refused behind the last byte that fits. -/
example : Constant.decodeText [0x61, 0xe0, 0x80, 0x41] = .error (.malformedText 3) := by decide

end AnnotationDefaults.ModifiedUtf8
