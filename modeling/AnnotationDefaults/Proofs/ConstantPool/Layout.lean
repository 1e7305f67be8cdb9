import AnnotationDefaults.Proofs.ConstantPool.Format
import AnnotationDefaults.Proofs.Text.Forms
import Mathlib.Algebra.Ring.Nat

set_option autoImplicit false

/-!
Which bytes are a pool, and where its constants stand. A pool is a count of slots and the
records of constants that begin below that count and together reach it. The constant of each
record is found at the slot where it begins; slot zero, the second slot of a wide constant and
every slot from the count on hold nothing.
-/

namespace AnnotationDefaults

open Decoder (Reads run_bind_eq_ok_iff run_pure_eq_ok_iff reads_byte reads_short reads_word
  reads_doubleWord reads_signedWord reads_signedDoubleWord)

variable {cursor after : Cursor}

/-! ### Records -/

theorem Decoder.Reads.of_run_one {α β : Type} {decoder : Decoder α} {encode : α → List UInt8}
    (hReads : Reads decoder encode fun _ => True) {build : α → β} {result : β}
    (hRun : StateT.run (do return build (← decoder)) cursor = .ok (result, after)) :
    ∃ value, build value = result ∧ cursor.Spans (encode value) after := by
  obtain ⟨value, between, hValue, hPure⟩ := run_bind_eq_ok_iff.1 hRun
  obtain ⟨hResult, rfl⟩ := run_pure_eq_ok_iff.1 hPure
  exact ⟨value, hResult, ((hReads _ _ _).1 hValue).2⟩

theorem Decoder.Reads.of_run_two {α β γ : Type} {first : Decoder α} {second : Decoder β}
    {encodeFirst : α → List UInt8} {encodeSecond : β → List UInt8}
    (hFirst : Reads first encodeFirst fun _ => True)
    (hSecond : Reads second encodeSecond fun _ => True) {build : α → β → γ} {result : γ}
    (hRun : StateT.run (do return build (← first) (← second)) cursor = .ok (result, after)) :
    ∃ left right, build left right = result ∧
      cursor.Spans (encodeFirst left ++ encodeSecond right) after := by
  obtain ⟨left, between, hLeft, hRest⟩ := run_bind_eq_ok_iff.1 hRun
  obtain ⟨right, hResult, hRight⟩ := hSecond.of_run_one hRest
  exact ⟨left, right, hResult, ((hFirst _ _ _).1 hLeft).2.append hRight⟩

namespace Constant

/-- The bytes are those of the constant; a text may be spelled by any payload. -/
inductive IsRecord : List UInt8 → Constant → Prop
  | text {payload : List UInt8} {units : List UInt16} (hLength : payload.length < UInt16.size)
      (hSpells : ModifiedUtf8.Spells payload units) :
      IsRecord (textRecord payload) (.utf8 (String.ofList (Utf16.decode units)))
  | plain {constant : Constant} (hEncodable : constant.IsEncodable) :
      IsRecord constant.encode constant

theorem exists_text_of_run_decodeFields {offset : Nat} {constant : Constant}
    (hRun : (decodeFields 1 offset).run cursor = .ok (constant, after)) :
    ∃ text, constant = .utf8 text := by
  obtain ⟨length, between, hLength, hRest⟩ := run_bind_eq_ok_iff.1 hRun
  obtain ⟨payload, behind, hPayload, hText⟩ := run_bind_eq_ok_iff.1 hRest
  obtain ⟨text, last, hRead, hPure⟩ := run_bind_eq_ok_iff.1 hText
  obtain ⟨rfl, -⟩ := run_pure_eq_ok_iff.1 hPure
  exact ⟨text, rfl⟩

theorem of_run_decodeFields {tag : UInt8} {offset : Nat} {constant : Constant} (hTag : tag ≠ 1)
    (hRun : (decodeFields tag offset).run cursor = .ok (constant, after)) :
    constant.tag = tag ∧ constant.IsEncodable ∧ cursor.Spans constant.encodeFields after := by
  unfold decodeFields at hRun
  split at hRun
  · exact absurd rfl hTag
  · obtain ⟨value, rfl, hSpans⟩ := reads_signedWord.of_run_one hRun
    exact ⟨rfl, trivial, hSpans⟩
  · obtain ⟨bits, rfl, hSpans⟩ := reads_word.of_run_one hRun
    exact ⟨rfl, trivial, hSpans⟩
  · obtain ⟨value, rfl, hSpans⟩ := reads_signedDoubleWord.of_run_one hRun
    exact ⟨rfl, trivial, hSpans⟩
  · obtain ⟨bits, rfl, hSpans⟩ := reads_doubleWord.of_run_one hRun
    exact ⟨rfl, trivial, hSpans⟩
  · obtain ⟨name, rfl, hSpans⟩ := reads_short.of_run_one hRun
    exact ⟨rfl, trivial, hSpans⟩
  · obtain ⟨text, rfl, hSpans⟩ := reads_short.of_run_one hRun
    exact ⟨rfl, trivial, hSpans⟩
  · obtain ⟨owner, member, rfl, hSpans⟩ := reads_short.of_run_two reads_short hRun
    exact ⟨rfl, Or.inl rfl, hSpans⟩
  · obtain ⟨owner, member, rfl, hSpans⟩ := reads_short.of_run_two reads_short hRun
    exact ⟨rfl, Or.inr (Or.inl rfl), hSpans⟩
  · obtain ⟨owner, member, rfl, hSpans⟩ := reads_short.of_run_two reads_short hRun
    exact ⟨rfl, Or.inr (Or.inr rfl), hSpans⟩
  · obtain ⟨name, descriptor, rfl, hSpans⟩ := reads_short.of_run_two reads_short hRun
    exact ⟨rfl, trivial, hSpans⟩
  · obtain ⟨referenceKind, reference, rfl, hSpans⟩ := reads_byte.of_run_two reads_short hRun
    exact ⟨rfl, trivial, hSpans⟩
  · obtain ⟨descriptor, rfl, hSpans⟩ := reads_short.of_run_one hRun
    exact ⟨rfl, trivial, hSpans⟩
  · obtain ⟨bootstrap, member, rfl, hSpans⟩ := reads_short.of_run_two reads_short hRun
    exact ⟨rfl, Or.inl rfl, hSpans⟩
  · obtain ⟨bootstrap, member, rfl, hSpans⟩ := reads_short.of_run_two reads_short hRun
    exact ⟨rfl, Or.inr rfl, hSpans⟩
  · obtain ⟨name, rfl, hSpans⟩ := reads_short.of_run_one hRun
    exact ⟨rfl, trivial, hSpans⟩
  · obtain ⟨name, rfl, hSpans⟩ := reads_short.of_run_one hRun
    exact ⟨rfl, trivial, hSpans⟩
  · cases hRun

theorem run_decode_of_isRecord {record : List UInt8} {constant : Constant}
    (hRecord : IsRecord record constant) (hSpans : cursor.Spans record after) :
    decode.run cursor = .ok (constant, after) := by
  cases hRecord with
  | @text payload units hLength hSpells =>
      have hParts : textRecord payload = [1] ++ (bigEndian 2 payload.length ++ payload) := rfl
      have hNumber : (UInt16.ofNat payload.length).toNat = payload.length :=
        UInt16.toNat_ofNat_of_lt' hLength
      rw [hParts, Cursor.spans_append_iff] at hSpans
      obtain ⟨between, hTag, hFields⟩ := hSpans
      obtain ⟨behind, hCount, hPayload⟩ := Cursor.spans_append_iff.1 hFields
      rw [← hNumber] at hCount
      refine run_bind_eq_ok_iff.2 ⟨cursor.offset, cursor, rfl, ?_⟩
      refine run_bind_eq_ok_iff.2 ⟨1, between, (reads_byte _ _ _).2 ⟨trivial, hTag⟩, ?_⟩
      refine run_bind_eq_ok_iff.2 ⟨_, behind, (reads_short _ _ _).2 ⟨trivial, hCount⟩, ?_⟩
      refine run_bind_eq_ok_iff.2
        ⟨_, after, Decoder.run_bytes_eq_ok_iff.2 ⟨hNumber.symm, hPayload⟩, ?_⟩
      rw [ModifiedUtf8.decodeText_eq_ok_iff.2 ⟨units, hSpells, rfl⟩]
      rfl
  | plain hEncodable => exact run_decode hEncodable hSpans

theorem exists_isRecord_of_run_decode {constant : Constant}
    (hRun : decode.run cursor = .ok (constant, after)) :
    ∃ record, IsRecord record constant ∧ cursor.Spans record after := by
  obtain ⟨offset, here, hOffset, hRest⟩ := run_bind_eq_ok_iff.1 hRun
  cases hOffset
  obtain ⟨tag, between, hTag, hFields⟩ := run_bind_eq_ok_iff.1 hRest
  by_cases hText : tag = 1
  · subst hText
    obtain ⟨text, rfl⟩ := exists_text_of_run_decodeFields hFields
    obtain ⟨payload, hLength, hSpans, hRead⟩ := spans_of_run_decode hRun
    obtain ⟨units, hSpells, rfl⟩ := ModifiedUtf8.decodeText_eq_ok_iff.1 hRead
    exact ⟨_, .text hLength hSpells, hSpans⟩
  · obtain ⟨rfl, hEncodable, hSpans⟩ := of_run_decodeFields hText hFields
    have hFirst : cursor.Spans [constant.tag] between := ((reads_byte _ _ _).1 hTag).2
    exact ⟨_, .plain hEncodable, hFirst.append hSpans⟩

theorem run_decode_iff {constant : Constant} :
    decode.run cursor = .ok (constant, after) ↔
      ∃ record, IsRecord record constant ∧ cursor.Spans record after := by
  constructor
  · exact exists_isRecord_of_run_decode
  · intro hGiven
    obtain ⟨record, hRecord, hSpans⟩ := hGiven
    exact run_decode_of_isRecord hRecord hSpans

/-- How many slots the format gives to a constant. -/
def width : Constant → Nat
  | .long _ => 2
  | .double _ => 2
  | _ => 1

theorem width_eq_ite (constant : Constant) :
    constant.width = if constant.isWide then 2 else 1 := by
  cases constant with
  | _ => rfl

theorem length_slots (constant : Constant) : constant.slots.length = constant.width := by
  rw [slots, width_eq_ite]
  split_ifs
  · rfl
  · rfl

theorem slots_of_width_eq_two {constant : Constant} (hWide : constant.width = 2) :
    constant.slots = [some constant, none] := by
  cases constant with
  | long _ => rfl
  | double _ => rfl
  | _ => cases hWide

theorem width_pos (constant : Constant) : 0 < constant.width := by
  rw [width_eq_ite]
  split_ifs
  · exact Nat.succ_pos 1
  · exact Nat.succ_pos 0

end Constant

namespace ConstantPool

/-! ### Filling slots -/

/-- One constant after the other begins inside the slots that are left, until none is. -/
inductive Fills : List Constant → Nat → Prop
  | nil : Fills [] 0
  | cons {constant : Constant} {rest : List Constant} {count : Nat}
      (hRest : Fills rest (count + 1 - constant.width)) : Fills (constant :: rest) (count + 1)

theorem decodeSlots_add_two (count : Nat) :
    decodeSlots (count + 2) = do
      let constant ← Constant.decode
      let rest ← decodeSlots (count + 2 - constant.width)
      return constant.slots ++ rest := by
  rw [decodeSlots]
  congr 1
  funext constant
  dsimp only
  rw [Constant.width_eq_ite]
  split_ifs
  · rfl
  · rfl

theorem run_decodeSlots_succ_iff {count : Nat} {slots : List (Option Constant)} :
    (decodeSlots (count + 1)).run cursor = .ok (slots, after) ↔
      ∃ constant between rest, Constant.decode.run cursor = .ok (constant, between) ∧
        (decodeSlots (count + 1 - constant.width)).run between = .ok (rest, after) ∧
        constant.slots.take (count + 1) ++ rest = slots := by
  cases count with
  | zero =>
      -- For one slot the reader has a case of its own, which cuts a wide constant.
      have hFirst (constant : Constant) : constant.slots.take 1 = [some constant] := by
        obtain ⟨others, hSlots, -⟩ := constant.slots_eq_cons
        rw [hSlots]
        rfl
      have hNone (constant : Constant) : 1 - constant.width = 0 :=
        Nat.sub_eq_zero_of_le constant.width_pos
      simp only [decodeSlots, run_bind_eq_ok_iff, run_pure_eq_ok_iff, Nat.zero_add, hFirst, hNone]
      constructor
      · intro hGiven
        obtain ⟨constant, between, hConstant, hSlots, hAfter⟩ := hGiven
        exact ⟨constant, between, [], hConstant, ⟨rfl, hAfter⟩, hSlots⟩
      · intro hGiven
        obtain ⟨constant, between, rest, hConstant, ⟨rfl, hAfter⟩, hSlots⟩ := hGiven
        exact ⟨constant, between, hConstant, hSlots, hAfter⟩
  | succ count =>
      have hWhole (constant : Constant) :
          constant.slots.take (count + 1 + 1) = constant.slots := by
        rw [List.take_of_length_le]
        rw [Constant.length_slots, Constant.width_eq_ite]
        split_ifs
        · omega
        · omega
      rw [decodeSlots_add_two]
      simp only [run_bind_eq_ok_iff, run_pure_eq_ok_iff, hWhole]
      constructor
      · intro hGiven
        obtain ⟨constant, between, hConstant, rest, behind, hLater, hSlots, rfl⟩ := hGiven
        exact ⟨constant, between, rest, hConstant, hLater, hSlots⟩
      · intro hGiven
        obtain ⟨constant, between, rest, hConstant, hLater, hSlots⟩ := hGiven
        exact ⟨constant, between, hConstant, rest, after, hLater, hSlots, rfl⟩

theorem take_flatMap_slots_cons (constant : Constant) (rest : List Constant) (count : Nat) :
    ((constant :: rest).flatMap Constant.slots).take count =
      constant.slots.take count ++
        (rest.flatMap Constant.slots).take (count - constant.width) := by
  rw [List.flatMap_cons, List.take_append, Constant.length_slots]

theorem run_decodeSlots_iff {count : Nat} {slots : List (Option Constant)} :
    (decodeSlots count).run cursor = .ok (slots, after) ↔
      ∃ records entries, List.Forall₂ Constant.IsRecord records entries ∧
        cursor.Spans records.flatten after ∧ Fills entries count ∧
        (entries.flatMap Constant.slots).take count = slots := by
  induction count using Nat.strongRecOn generalizing cursor slots with
  | ind count ih =>
      cases count with
      | zero =>
          constructor
          · intro hRun
            cases hRun
            exact ⟨[], [], .nil, Cursor.spans_nil_iff.2 rfl, .nil, rfl⟩
          · intro hGiven
            obtain ⟨records, entries, hRecords, hSpans, hFills, rfl⟩ := hGiven
            cases hFills
            cases hRecords
            rw [List.flatten_nil, Cursor.spans_nil_iff] at hSpans
            subst hSpans
            rfl
      | succ count =>
          have hLess (constant : Constant) : count + 1 - constant.width < count + 1 :=
            Nat.sub_lt (Nat.succ_pos count) constant.width_pos
          rw [run_decodeSlots_succ_iff]
          constructor
          · intro hGiven
            obtain ⟨constant, between, rest, hConstant, hRest, rfl⟩ := hGiven
            obtain ⟨record, hRecord, hSpans⟩ := Constant.run_decode_iff.1 hConstant
            obtain ⟨records, entries, hRecords, hLater, hFills, rfl⟩ := (ih _ (hLess _)).1 hRest
            exact ⟨record :: records, constant :: entries, .cons hRecord hRecords,
              hSpans.append hLater, .cons hFills, take_flatMap_slots_cons _ _ _⟩
          · intro hGiven
            obtain ⟨_, _, hRecords, hSpans, hFills, rfl⟩ := hGiven
            cases hFills with
            | cons hFills =>
                cases hRecords with
                | cons hRecord hRecords =>
                    rw [List.flatten_cons, Cursor.spans_append_iff] at hSpans
                    obtain ⟨between, hSpans, hLater⟩ := hSpans
                    exact ⟨_, between, _, Constant.run_decode_iff.2 ⟨_, hRecord, hSpans⟩,
                      (ih _ (hLess _)).2 ⟨_, _, hRecords, hLater, hFills, rfl⟩,
                      (take_flatMap_slots_cons _ _ _).symm⟩

/-! ### Where constants stand -/

/-- The slot at which the constant of a place begins. -/
def firstSlot (entries : List Constant) (place : Nat) : Nat :=
  1 + ((entries.take place).map Constant.width).sum

/-- Every constant begins below the count, and behind the last one the count is reached. -/
structure Reaches (entries : List Constant) (count : Nat) : Prop where
  begins : ∀ place < entries.length, firstSlot entries place < count
  reaches : count ≤ firstSlot entries entries.length

/-- The bytes are a count and the records of constants that reach it. -/
def LaidOut (bytes : List UInt8) (count : UInt16) (entries : List Constant) : Prop :=
  ∃ records, bytes = bigEndian 2 count.toNat ++ records.flatten ∧
    List.Forall₂ Constant.IsRecord records entries ∧ Reaches entries count.toNat

/-- Slots that hold no constant: slot zero, the second slot of a wide constant, and the slots
behind the last one. -/
inductive IsEmptySlot (pool : ConstantPool) (entries : List Constant) : Nat → Prop
  | zero : IsEmptySlot pool entries 0
  | second {place : Nat} {constant : Constant} (hPlace : entries[place]? = some constant)
      (hWide : constant.width = 2) : IsEmptySlot pool entries (firstSlot entries place + 1)
  | behind {slot : Nat} (hBehind : pool.size ≤ slot) : IsEmptySlot pool entries slot

/-- The pool has as many slots as counted, slot zero in any case, and each constant is found
where it begins and nowhere else. -/
structure Holds (pool : ConstantPool) (count : UInt16) (entries : List Constant) : Prop where
  size_eq : pool.size = max count.toNat 1
  get_first : ∀ place constant, entries[place]? = some constant → ∀ index : UInt16,
    index.toNat = firstSlot entries place → pool.get index = .ok constant
  get_empty : ∀ index : UInt16, pool.IsEmptySlot entries index.toNat →
    pool.get index = .error (.indexOutOfRange index pool.size)

theorem fills_iff {entries : List Constant} {count : Nat} :
    Fills entries count ↔
      (∀ place < entries.length, ((entries.take place).map Constant.width).sum < count) ∧
        count ≤ (entries.map Constant.width).sum := by
  induction entries generalizing count with
  | nil =>
      constructor
      · intro hFills
        cases hFills
        exact ⟨fun place hPlace => absurd hPlace (Nat.not_lt_zero _), Nat.le_refl _⟩
      · intro hGiven
        have hZero : count = 0 := Nat.le_zero.1 hGiven.2
        rw [hZero]
        exact .nil
  | cons constant rest ih =>
      cases count with
      | zero =>
          constructor
          · intro hFills
            cases hFills
          · intro hGiven
            exact absurd (hGiven.1 0 (Nat.succ_pos _)) (Nat.lt_irrefl 0)
      | succ count =>
          have hCons : Fills (constant :: rest) (count + 1) ↔
              Fills rest (count + 1 - constant.width) := by
            constructor
            · intro hFills
              cases hFills with
              | cons hRest => exact hRest
            · exact Fills.cons
          rw [hCons, ih, List.map_cons, List.sum_cons]
          constructor
          · intro hGiven
            refine ⟨fun place hPlace => ?_, by omega⟩
            cases place with
            | zero => exact Nat.succ_pos _
            | succ place =>
                have hLess := hGiven.1 place (Nat.lt_of_succ_lt_succ hPlace)
                rw [List.take_succ_cons, List.map_cons, List.sum_cons]
                omega
          · intro hGiven
            refine ⟨fun place hPlace => ?_, by omega⟩
            have hLess := hGiven.1 (place + 1) (Nat.succ_lt_succ hPlace)
            rw [List.take_succ_cons, List.map_cons, List.sum_cons] at hLess
            omega

theorem reaches_iff_fills {entries : List Constant} {count : Nat} :
    Reaches entries count ↔ Fills entries (count - 1) := by
  rw [fills_iff]
  constructor
  · intro hReaches
    obtain ⟨hBegins, hReaches⟩ := hReaches
    unfold firstSlot at hBegins hReaches
    rw [List.take_length] at hReaches
    exact ⟨fun place hPlace => by have := hBegins place hPlace; omega, by omega⟩
  · intro hGiven
    obtain ⟨hBegins, hReaches⟩ := hGiven
    constructor
    · intro place hPlace
      have hLess := hBegins place hPlace
      unfold firstSlot
      omega
    · unfold firstSlot
      rw [List.take_length]
      omega

theorem length_flatMap_slots (entries : List Constant) :
    (entries.flatMap Constant.slots).length = (entries.map Constant.width).sum := by
  rw [List.length_flatMap]
  simp only [Constant.length_slots]

def ofEntries (entries : List Constant) (count : Nat) : ConstantPool :=
  ofSlots ((entries.flatMap Constant.slots).take (count - 1))

theorem slots_at_place {entries : List Constant} {place : Nat} {constant : Constant}
    (hPlace : entries[place]? = some constant) :
    ∃ before after, entries.flatMap Constant.slots = before ++ (constant.slots ++ after) ∧
      before.length + 1 = firstSlot entries place := by
  obtain ⟨hLess, rfl⟩ := List.getElem?_eq_some_iff.1 hPlace
  refine ⟨(entries.take place).flatMap Constant.slots,
    (entries.drop (place + 1)).flatMap Constant.slots, ?_, ?_⟩
  · rw [← List.flatMap_cons, ← List.flatMap_append, ← List.drop_eq_getElem_cons hLess,
      List.take_append_drop]
  · rw [length_flatMap_slots, firstSlot, Nat.add_comm]

theorem size_ofEntries {entries : List Constant} {count : Nat} (hReaches : Reaches entries count) :
    (ofEntries entries count).size = max count 1 := by
  have hSlots := (fills_iff.1 (reaches_iff_fills.1 hReaches)).2
  rw [ofEntries, size, ofSlots, List.size_toArray, List.length_take, length_flatMap_slots]
  omega

theorem slot?_ofEntries {entries : List Constant} {count slot : Nat} (hSlot : slot < count - 1) :
    (ofEntries entries count).slot? (slot + 1) =
      ((entries.flatMap Constant.slots)[slot]?).join := by
  rw [slot?, ofEntries, ofSlots, List.getElem?_toArray, List.getElem?_take_of_lt hSlot]

theorem slot?_of_size_le {pool : ConstantPool} {slot : Nat} (hSize : pool.size ≤ slot) :
    pool.slot? slot = none := by
  cases slot with
  | zero => rfl
  | succ slot =>
      have hBehind : pool.later.size ≤ slot := Nat.le_of_succ_le_succ hSize
      rw [slot?, Array.getElem?_eq_none hBehind]
      rfl

theorem slot?_first {entries : List Constant} {count place : Nat} {constant : Constant}
    (hReaches : Reaches entries count) (hPlace : entries[place]? = some constant) :
    (ofEntries entries count).slot? (firstSlot entries place) = some constant := by
  obtain ⟨hLess, -⟩ := List.getElem?_eq_some_iff.1 hPlace
  have hBegins := hReaches.begins place hLess
  obtain ⟨before, after, hSlots, hFirst⟩ := slots_at_place hPlace
  obtain ⟨others, hOwn, -⟩ := constant.slots_eq_cons
  rw [← hFirst, slot?_ofEntries (by omega), hSlots, hOwn, List.cons_append,
    List.getElem?_append_right (Nat.le_refl _), Nat.sub_self]
  rfl

theorem slot?_second {entries : List Constant} {count place : Nat} {constant : Constant}
    (hReaches : Reaches entries count) (hPlace : entries[place]? = some constant)
    (hWide : constant.width = 2) :
    (ofEntries entries count).slot? (firstSlot entries place + 1) = none := by
  obtain ⟨before, after, hSlots, hFirst⟩ := slots_at_place hPlace
  have hOwn := Constant.slots_of_width_eq_two hWide
  by_cases hInside : firstSlot entries place < count - 1
  · rw [slot?_ofEntries hInside, hSlots, ← hFirst, hOwn,
      List.getElem?_append_right (Nat.le_add_right _ 1), Nat.add_sub_cancel_left]
    rfl
  · -- The last constant was cut, and its second slot with it.
    apply slot?_of_size_le
    rw [size_ofEntries hReaches]
    omega

theorem get_of_slot?_eq_none {pool : ConstantPool} {index : UInt16}
    (hSlot : pool.slot? index.toNat = none) :
    pool.get index = .error (.indexOutOfRange index pool.size) := by
  rw [get, hSlot]

theorem holds_ofEntries {entries : List Constant} {count : UInt16}
    (hReaches : Reaches entries count.toNat) :
    (ofEntries entries count.toNat).Holds count entries := by
  constructor
  · exact size_ofEntries hReaches
  · intro place constant hPlace index hIndex
    rw [get_eq_ok_iff, hIndex]
    exact slot?_first hReaches hPlace
  · intro index hEmpty
    apply get_of_slot?_eq_none
    generalize index.toNat = slot at hEmpty
    cases hEmpty with
    | zero => rfl
    | second hPlace hWide => exact slot?_second hReaches hPlace hWide
    | behind hBehind => exact slot?_of_size_le hBehind

theorem run_decode_iff {pool : ConstantPool} :
    decode.run cursor = .ok (pool, after) ↔
      ∃ bytes count entries, cursor.Spans bytes after ∧ LaidOut bytes count entries ∧
        ofEntries entries count.toNat = pool := by
  rw [decode, run_bind_eq_ok_iff]
  simp only [run_bind_eq_ok_iff, run_pure_eq_ok_iff, reads_short _ _ _, run_decodeSlots_iff]
  constructor
  · intro hGiven
    obtain ⟨count, between, ⟨-, hCount⟩, _, _, ⟨records, entries, hRecords, hSpans, hFills, rfl⟩,
      rfl, rfl⟩ := hGiven
    exact ⟨_, count, entries, hCount.append hSpans,
      ⟨records, rfl, hRecords, reaches_iff_fills.2 hFills⟩, rfl⟩
  · intro hGiven
    obtain ⟨_, count, entries, hSpans, ⟨records, rfl, hRecords, hReaches⟩, rfl⟩ := hGiven
    obtain ⟨between, hCount, hRecordsSpan⟩ := Cursor.spans_append_iff.1 hSpans
    exact ⟨count, between, ⟨trivial, hCount⟩, _, after,
      ⟨records, entries, hRecords, hRecordsSpan, reaches_iff_fills.1 hReaches, rfl⟩, rfl, rfl⟩

theorem LaidOut.ne_nil {bytes : List UInt8} {count : UInt16} {entries : List Constant}
    (hLaidOut : LaidOut bytes count entries) : bytes ≠ [] := by
  obtain ⟨records, rfl, -⟩ := hLaidOut
  apply List.ne_nil_of_length_pos
  rw [List.length_append, length_bigEndian]
  omega

theorem run_decode_of_laidOut {bytes : List UInt8} {start stop : Nat} {count : UInt16}
    {entries : List Constant} (hStop : stop ≤ bytes.length)
    (hLaidOut : LaidOut (bytes.extract start stop) count entries) :
    decode.run (.into bytes start) = .ok (ofEntries entries count.toNat, .into bytes stop) := by
  have hSpans := (Cursor.into_spans_iff hLaidOut.ne_nil).2 ⟨stop, rfl, hStop, rfl⟩
  exact run_decode_iff.2 ⟨_, count, entries, hSpans, hLaidOut, rfl⟩

theorem exists_laidOut_of_run_decode {bytes : List UInt8} {start stop : Nat} {pool : ConstantPool}
    (hRun : decode.run (.into bytes start) = .ok (pool, .into bytes stop)) :
    stop ≤ bytes.length ∧ ∃ count entries, LaidOut (bytes.extract start stop) count entries := by
  obtain ⟨taken, count, entries, hSpans, hLaidOut, -⟩ := run_decode_iff.1 hRun
  obtain ⟨last, hAfter, hLast, rfl⟩ := (Cursor.into_spans_iff hLaidOut.ne_nil).1 hSpans
  have hSame : stop = last := congrArg Cursor.offset hAfter
  subst hSame
  exact ⟨hLast, count, entries, hLaidOut⟩

/-- Reading a pool from one offset succeeds and stops at another exactly if the bytes between
them are a count and the records of constants that reach it. The pool then holds each of these
constants at the slot where it begins, and nothing at slot zero, at second slots and behind. -/
theorem decode_into_exactly_laidOut (bytes : List UInt8) (start stop : Nat) :
    ((∃ pool, decode.run (.into bytes start) = .ok (pool, .into bytes stop)) ↔
      stop ≤ bytes.length ∧ ∃ count entries, LaidOut (bytes.extract start stop) count entries) ∧
    ∀ pool count entries, decode.run (.into bytes start) = .ok (pool, .into bytes stop) →
      LaidOut (bytes.extract start stop) count entries → pool.Holds count entries := by
  constructor
  · constructor
    · intro hGiven
      obtain ⟨pool, hRun⟩ := hGiven
      exact exists_laidOut_of_run_decode hRun
    · intro hGiven
      obtain ⟨hStop, count, entries, hLaidOut⟩ := hGiven
      exact ⟨_, run_decode_of_laidOut hStop hLaidOut⟩
  · intro pool count entries hRun hLaidOut
    obtain ⟨hStop, -⟩ := exists_laidOut_of_run_decode hRun
    cases hRun.symm.trans (run_decode_of_laidOut hStop hLaidOut)
    obtain ⟨records, -, -, hReaches⟩ := hLaidOut
    exact holds_ofEntries hReaches

/-- A count of six slots: an overlong text, an eight-byte number, a number behind it and an
eight-byte number that is cut to the last slot. Another byte follows. -/
def cutPool : List UInt8 :=
  [0, 6, 1, 0, 2, 0xc1, 0x81, 5, 0, 0, 0, 0, 0, 0, 0, 7, 3, 0, 0, 0, 9,
    6, 0x40, 0, 0, 0, 0, 0, 0, 0, 0xff]

def cutEntries : List Constant :=
  [.utf8 "A", .long 7, .integer 9, .double 0x4000000000000000]

theorem cutPool_holds :
    ∃ pool, decode.run (.into cutPool 0) = .ok (pool, .into cutPool 30) ∧
      LaidOut (cutPool.extract 0 30) 6 cutEntries ∧ pool.Holds 6 cutEntries ∧
      pool.get 4 = .ok (.integer 9) ∧ pool.get 3 = .error (.indexOutOfRange 3 6) := by
  have hForm : ModifiedUtf8.SpellsUnit [0xc1, 0x81] 0x41 := .two (by decide) (by decide)
  have hLetter : String.ofList (Utf16.decode [UInt16.ofNat 0x41]) = "A" := by decide
  have hText : Constant.IsRecord [1, 0, 2, 0xc1, 0x81] (.utf8 "A") :=
    hLetter ▸ .text (by decide) (.cons hForm .nil)
  have hLong : Constant.IsRecord (Constant.encode (.long 7)) (.long 7) := .plain trivial
  have hInteger : Constant.IsRecord (Constant.encode (.integer 9)) (.integer 9) := .plain trivial
  have hDouble : Constant.IsRecord (Constant.encode (.double 0x4000000000000000))
      (.double 0x4000000000000000) := .plain trivial
  have hReaches : Reaches cutEntries 6 := by
    constructor
    · decide
    · decide
  have hLaidOut : LaidOut (cutPool.extract 0 30) 6 cutEntries :=
    ⟨_, by decide, .cons hText (.cons hLong (.cons hInteger (.cons hDouble .nil))), hReaches⟩
  have hExactly := decode_into_exactly_laidOut cutPool 0 30
  obtain ⟨pool, hRun⟩ := hExactly.1.2 ⟨by decide, _, _, hLaidOut⟩
  have hHolds := hExactly.2 pool _ _ hRun hLaidOut
  have hBehind := hHolds.get_first 2 (.integer 9) rfl 4 rfl
  have hSlot : IsEmptySlot pool cutEntries (firstSlot cutEntries 1 + 1) := .second rfl rfl
  have hSecond := hHolds.get_empty 3 hSlot
  rw [hHolds.size_eq] at hSecond
  exact ⟨pool, hRun, hLaidOut, hHolds, hBehind, hSecond⟩

end ConstantPool

end AnnotationDefaults
