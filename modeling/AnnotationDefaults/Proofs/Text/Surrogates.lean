import AnnotationDefaults.Proofs.Text.ModifiedUtf8

set_option autoImplicit false

/-!
What reading units as text keeps. A surrogate is unpaired if the unit that would make a pair
with it is not next to it. The text of units has the same units again, place by place, except
that the replacement character stands for every unpaired surrogate; so a text tells its units
exactly if none of them is unpaired.
-/

namespace AnnotationDefaults.Utf16

/-- At the place is a high surrogate without a low one behind it, or a low one without a high
one before it. -/
def IsUnpaired (units : List UInt16) (place : Nat) : Prop :=
  (∃ high ∈ units[place]?, IsHigh high ∧ ∀ next ∈ units[place + 1]?, ¬ IsLow next) ∨
    (∃ low ∈ units[place]?, IsLow low ∧
      (0 < place → ∀ previous ∈ units[place - 1]?, ¬ IsHigh previous))

instance (units : List UInt16) (place : Nat) : Decidable (IsUnpaired units place) :=
  inferInstanceAs (Decidable (_ ∨ _))

def replacementUnit : UInt16 := 0xfffd

/-- The units with the replacement's unit for every unpaired surrogate. -/
def repaired (units : List UInt16) : List UInt16 :=
  units.mapIdx fun place unit => if IsUnpaired units place then replacementUnit else unit

variable {first second unit : UInt16} {rest units : List UInt16} {place : Nat}

/-! ### Places behind the first -/

theorem isUnpaired_zero_iff :
    IsUnpaired (first :: rest) 0 ↔
      (IsHigh first ∧ ∀ next ∈ rest[0]?, ¬ IsLow next) ∨ IsLow first := by
  simp [IsUnpaired]

theorem isUnpaired_add_two_iff :
    IsUnpaired (first :: rest) (place + 2) ↔ IsUnpaired rest (place + 1) := by
  simp [IsUnpaired]

theorem isUnpaired_one_iff (hApart : IsHigh first → ∀ next ∈ rest[0]?, ¬ IsLow next) :
    IsUnpaired (first :: rest) 1 ↔ IsUnpaired rest 0 := by
  cases rest with
  | nil => simp [IsUnpaired]
  | cons next rest =>
      have hNext : IsLow next → ¬ IsHigh first := fun hLow hHigh => hApart hHigh next rfl hLow
      have hBehind : IsUnpaired (first :: next :: rest) 1 ↔
          (IsHigh next ∧ ∀ other ∈ rest[0]?, ¬ IsLow other) ∨ (IsLow next ∧ ¬ IsHigh first) := by
        simp [IsUnpaired]
      rw [hBehind, isUnpaired_zero_iff, and_iff_left_of_imp hNext]

theorem isUnpaired_succ_iff (hApart : IsHigh first → ∀ next ∈ rest[0]?, ¬ IsLow next) :
    IsUnpaired (first :: rest) (place + 1) ↔ IsUnpaired rest place := by
  cases place with
  | zero => exact isUnpaired_one_iff hApart
  | succ place => exact isUnpaired_add_two_iff

theorem not_isLow_of_isHigh (hHigh : IsHigh unit) : ¬ IsLow unit := by
  unfold IsHigh at hHigh
  unfold IsLow
  omega

theorem repaired_cons (hApart : IsHigh first → ∀ next ∈ rest[0]?, ¬ IsLow next) :
    repaired (first :: rest) =
      (if IsHigh first ∨ IsLow first then replacementUnit else first) :: repaired rest := by
  have hFirst : IsUnpaired (first :: rest) 0 ↔ IsHigh first ∨ IsLow first := by
    rw [isUnpaired_zero_iff, and_iff_left_of_imp hApart]
  simp only [repaired, List.mapIdx_cons, isUnpaired_succ_iff hApart, hFirst]

theorem repaired_pair (hHigh : IsHigh first) (hLow : IsLow second) :
    repaired (first :: second :: rest) = first :: second :: repaired rest := by
  have hSecond : ¬ IsHigh second := fun hOther => not_isLow_of_isHigh hOther hLow
  have hFirstPaired : ¬ IsUnpaired (first :: second :: rest) 0 := by
    simp [isUnpaired_zero_iff, hLow, not_isLow_of_isHigh hHigh]
  have hSecondPaired : ¬ IsUnpaired (first :: second :: rest) 1 := by
    simp [IsUnpaired, hHigh, hSecond]
  have hBehind (place : Nat) :
      IsUnpaired (first :: second :: rest) (place + 1 + 1) ↔ IsUnpaired rest place := by
    rw [isUnpaired_add_two_iff]
    apply isUnpaired_succ_iff
    intro hOther
    exact absurd hOther hSecond
  simp only [repaired, List.mapIdx_cons, Nat.zero_add, hFirstPaired, hSecondPaired, hBehind,
    if_false]

/-! ### Characters and their units -/

theorem ofChar_loneChar :
    ofChar (loneChar unit) = [if IsHigh unit ∨ IsLow unit then replacementUnit else unit] := by
  unfold loneChar
  by_cases hSurrogate : IsHigh unit ∨ IsLow unit
  · rw [if_pos hSurrogate, if_pos hSurrogate]
    rfl
  · rw [if_neg hSurrogate, if_neg hSurrogate]
    have hBound : unit.toNat < 0x10000 := unit.toNat_lt
    have hValid : unit.toNat.isValidChar := by
      unfold IsHigh IsLow at hSurrogate
      unfold Nat.isValidChar
      omega
    rw [ofChar, toNat_ofNat_of_isValidChar hValid, if_pos hBound, UInt16.ofNat_toNat]

theorem ofChar_pairChar (hHigh : IsHigh first) (hLow : IsLow second) :
    ofChar (pairChar first second) = [first, second] := by
  unfold IsHigh at hHigh
  unfold IsLow at hLow
  have hValid :
      (0x10000 + (first.toNat - 0xd800) * 0x400 + (second.toNat - 0xdc00)).isValidChar := by
    unfold Nat.isValidChar
    omega
  have hBeyond :
      ¬ 0x10000 + (first.toNat - 0xd800) * 0x400 + (second.toNat - 0xdc00) < 0x10000 := by
    omega
  have hFirst : 0xd800 + (0x10000 + (first.toNat - 0xd800) * 0x400 + (second.toNat - 0xdc00) -
      0x10000) / 0x400 = first.toNat := by
    omega
  have hSecond : 0xdc00 + (0x10000 + (first.toNat - 0xd800) * 0x400 + (second.toNat - 0xdc00) -
      0x10000) % 0x400 = second.toNat := by
    omega
  rw [pairChar, ofChar, toNat_ofNat_of_isValidChar hValid, if_neg hBeyond, hFirst, hSecond,
    UInt16.ofNat_toNat, UInt16.ofNat_toNat]

theorem encode_cons {symbol : Char} {content : List Char} :
    encode (symbol :: content) = ofChar symbol ++ encode content :=
  List.flatMap_cons

/-! ### Texts and their units -/

/-- The text of units has the same units, but for the unpaired surrogates. -/
theorem encode_decode (units : List UInt16) : encode (decode units) = repaired units := by
  -- The reader pairs a high surrogate with the unit behind it, so at each step the first unit
  -- is no half of a pair that began before.
  fun_induction decode units with
  | case1 => rfl
  | case2 unit =>
      rw [encode_cons, ofChar_loneChar, repaired_cons (by simp)]
      rfl
  | case3 first second rest hPair ih =>
      rw [encode_cons, ofChar_pairChar hPair.1 hPair.2, ih, repaired_pair hPair.1 hPair.2]
      rfl
  | case4 first second rest hPair ih =>
      have hApart : IsHigh first → ∀ next ∈ (second :: rest)[0]?, ¬ IsLow next := by
        simpa using hPair
      rw [encode_cons, ofChar_loneChar, ih, repaired_cons hApart]
      rfl

theorem decode_eq_iff {content : List Char} :
    decode units = content ↔ encode content = repaired units := by
  rw [← encode_decode]
  constructor
  · intro hSame
    rw [hSame]
  · intro hSame
    have hDecoded := congrArg decode hSame
    rw [decode_encode, decode_encode] at hDecoded
    exact hDecoded.symm

theorem getElem?_repaired :
    (repaired units)[place]? =
      if IsUnpaired units place then some replacementUnit else units[place]? := by
  rw [repaired, List.getElem?_mapIdx]
  by_cases hUnpaired : IsUnpaired units place
  · simp only [if_pos hUnpaired]
    rcases hUnpaired with hHigh | hLow
    · obtain ⟨high, hPlace, -⟩ := hHigh
      rw [hPlace, Option.map_some]
    · obtain ⟨low, hPlace, -⟩ := hLow
      rw [hPlace, Option.map_some]
  · simp only [if_neg hUnpaired, Option.map_id']

theorem getElem?_ne_of_isUnpaired (hUnpaired : IsUnpaired units place) :
    units[place]? ≠ some replacementUnit := by
  intro hPlace
  unfold IsUnpaired at hUnpaired
  rw [hPlace] at hUnpaired
  have hHigh : ¬ IsHigh replacementUnit := by decide
  have hLow : ¬ IsLow replacementUnit := by decide
  simp [hHigh, hLow] at hUnpaired

theorem repaired_eq_self_iff : repaired units = units ↔ ∀ place, ¬ IsUnpaired units place := by
  constructor
  · intro hSame place hUnpaired
    have hPlace : (repaired units)[place]? = units[place]? := by rw [hSame]
    -- The replacement is no surrogate, so it differs from what it stands for.
    rw [getElem?_repaired, if_pos hUnpaired] at hPlace
    exact getElem?_ne_of_isUnpaired hUnpaired hPlace.symm
  · intro hPaired
    apply List.ext_getElem?
    intro place
    rw [getElem?_repaired, if_neg (hPaired place)]

end AnnotationDefaults.Utf16
