import AnnotationDefaults.Bytes.Cursor
import AnnotationDefaults.Proofs.Success

set_option autoImplicit false

/-!
Steps of successful readers. A reader that succeeds moves the cursor over bytes, and what
two readers take one after the other is what they take together.
-/

namespace AnnotationDefaults

theorem split?_eq_some_iff {α : Type} {count : Nat} {items taken rest : List α} :
    split? count items = some (taken, rest) ↔ items = taken ++ rest ∧ taken.length = count := by
  induction count generalizing items taken with
  | zero =>
      rw [split?, List.length_eq_zero_iff]
      constructor
      · intro hNone
        cases hNone
        exact ⟨rfl, rfl⟩
      · intro hGiven
        rcases hGiven with ⟨rfl, rfl⟩
        rfl
  | succ count ih =>
      cases items with
      | nil =>
          constructor
          · intro hNone
            cases hNone
          · intro hGiven
            rcases hGiven with ⟨hItems, hLength⟩
            rw [(List.append_eq_nil_iff.1 hItems.symm).1] at hLength
            cases hLength
      | cons item items =>
          rw [split?, Option.map_eq_some_iff]
          constructor
          · intro hGiven
            rcases hGiven with ⟨⟨others, after⟩, hSplit, hResult⟩
            rcases Prod.mk.inj hResult with ⟨rfl, rfl⟩
            obtain ⟨rfl, rfl⟩ := ih.1 hSplit
            exact ⟨rfl, rfl⟩
          · intro hGiven
            rcases hGiven with ⟨hItems, hLength⟩
            cases taken with
            | nil => cases hLength
            | cons first others =>
                rcases List.cons.inj hItems with ⟨rfl, rfl⟩
                exact ⟨(others, rest), ih.2 ⟨rfl, Nat.succ.inj hLength⟩, rfl⟩

namespace Cursor

variable {cursor after : Cursor} {first second : List UInt8}

/-- These bytes stand at the cursor, and behind them is the other cursor. -/
def Spans (cursor : Cursor) (bytes : List UInt8) (after : Cursor) : Prop :=
  cursor.rest = bytes ++ after.rest ∧ after.offset = cursor.offset + bytes.length

theorem spans_nil_iff : cursor.Spans [] after ↔ cursor = after := by
  constructor
  · rintro ⟨hRest, hOffset⟩
    rcases cursor with ⟨offset, rest⟩
    rcases after with ⟨offset', rest'⟩
    cases hRest
    cases hOffset
    rfl
  · rintro rfl
    exact ⟨rfl, rfl⟩

theorem Spans.append {between : Cursor} (hFirst : cursor.Spans first between)
    (hSecond : between.Spans second after) : cursor.Spans (first ++ second) after := by
  rcases hFirst with ⟨hRest, hOffset⟩
  rcases hSecond with ⟨hRest', hOffset'⟩
  constructor
  · rw [hRest, hRest', List.append_assoc]
  · rw [hOffset', hOffset, List.length_append, Nat.add_assoc]

theorem spans_append_iff :
    cursor.Spans (first ++ second) after ↔
      ∃ between, cursor.Spans first between ∧ between.Spans second after := by
  constructor
  · rintro ⟨hRest, hOffset⟩
    rw [List.append_assoc] at hRest
    rw [List.length_append, ← Nat.add_assoc] at hOffset
    exact ⟨⟨cursor.offset + first.length, second ++ after.rest⟩, ⟨hRest, rfl⟩, rfl, hOffset⟩
  · rintro ⟨between, hFirst, hSecond⟩
    exact hFirst.append hSecond

theorem Spans.after_eq {after' : Cursor} (hFirst : cursor.Spans first after)
    (hSecond : cursor.Spans second after') (hLength : first.length = second.length) :
    after = after' := by
  have hRest := (List.append_inj (hFirst.1.symm.trans hSecond.1) hLength).2
  have hOffset : after.offset = after'.offset := by rw [hFirst.2, hSecond.2, hLength]
  rcases after with ⟨offset, rest⟩
  rcases after' with ⟨offset', rest'⟩
  cases hRest
  cases hOffset
  rfl

def into (bytes : List UInt8) (start : Nat) : Cursor := ⟨start, bytes.drop start⟩

theorem ofBytes_spans_self (bytes : List UInt8) :
    (ofBytes bytes).Spans bytes ⟨bytes.length, []⟩ :=
  ⟨(List.append_nil _).symm, (Nat.zero_add _).symm⟩

theorem ofBytes_spans_iff {bytes taken : List UInt8} :
    (ofBytes bytes).Spans taken after ↔
      bytes = taken ++ after.rest ∧ after = into bytes taken.length := by
  constructor
  · rintro ⟨hRest, hOffset⟩
    have hBytes : bytes = taken ++ after.rest := hRest
    refine ⟨hBytes, ?_⟩
    have hSize : after.offset = taken.length := hOffset.trans (Nat.zero_add _)
    have hDrop : bytes.drop taken.length = after.rest := by rw [hBytes, List.drop_left]
    rw [into, hDrop, ← hSize]
  · rintro ⟨hBytes, rfl⟩
    exact ⟨hBytes, (Nat.zero_add _).symm⟩

/-- Moving over some bytes inside a byte string ends inside it, and the bytes moved over
are those between the two offsets. -/
theorem into_spans_iff {bytes taken : List UInt8} {start : Nat} (hTaken : taken ≠ []) :
    (into bytes start).Spans taken after ↔
      ∃ stop, after = into bytes stop ∧ stop ≤ bytes.length ∧
        bytes.extract start stop = taken := by
  have hPositive := List.length_pos_iff.2 hTaken
  constructor
  · rintro ⟨hRest, hOffset⟩
    have hDrop : bytes.drop start = taken ++ after.rest := hRest
    have hStart : after.offset = start + taken.length := hOffset
    have hBehind : bytes.drop (start + taken.length) = after.rest := by
      rw [← List.drop_drop, hDrop, List.drop_left]
    have hLength := congrArg List.length hDrop
    rw [List.length_drop, List.length_append] at hLength
    have hStop : start + taken.length ≤ bytes.length := by omega
    refine ⟨start + taken.length, ?_, hStop, ?_⟩
    · rw [into, hBehind, ← hStart]
    · rw [List.extract_eq_take_drop, hDrop, Nat.add_sub_cancel_left, List.take_left]
  · rintro ⟨stop, rfl, hStop, rfl⟩
    rw [List.extract_eq_take_drop, List.length_take, List.length_drop] at hPositive
    have hLength : (bytes.extract start stop).length = stop - start := by
      rw [List.extract_eq_take_drop, List.length_take, List.length_drop]
      omega
    have hAdd : start + (stop - start) = stop := by omega
    constructor
    · rw [List.extract_eq_take_drop]
      calc bytes.drop start
          = (bytes.drop start).take (stop - start) ++ (bytes.drop start).drop (stop - start) :=
            (List.take_append_drop _ _).symm
        _ = (bytes.drop start).take (stop - start) ++ bytes.drop stop := by
            rw [List.drop_drop, hAdd]
    · rw [hLength]
      exact hAdd.symm

end Cursor

namespace Decoder

variable {α β : Type} {cursor after : Cursor}

theorem run_bind_eq_ok_iff {first : Decoder α} {next : α → Decoder β} {result : β} :
    (first >>= next).run cursor = .ok (result, after) ↔
      ∃ value between, first.run cursor = .ok (value, between) ∧
        (next value).run between = .ok (result, after) := by
  rw [StateT.run_bind, bind_eq_ok_iff, Prod.exists]

theorem run_pure_eq_ok_iff {value result : α} :
    (pure value : Decoder α).run cursor = .ok (result, after) ↔
      value = result ∧ cursor = after := by
  rw [StateT.run_pure, pure_eq_ok_iff, Prod.mk.injEq]

theorem run_bytes_eq_ok_iff {count : Nat} {taken : List UInt8} :
    (bytes count).run cursor = .ok (taken, after) ↔
      taken.length = count ∧ cursor.Spans taken after := by
  cases hSplit : split? count cursor.rest with
  | none =>
      have hBytes : (bytes count).run cursor =
          .error (.unexpectedEnd cursor.offset count cursor.remaining) := by
        simp only [bytes, StateT.run, hSplit]
      rw [hBytes]
      constructor
      · intro hNone
        cases hNone
      · intro hGiven
        rcases hGiven with ⟨hLength, hRest, -⟩
        rw [split?_eq_some_iff.2 ⟨hRest, hLength⟩] at hSplit
        cases hSplit
  | some found =>
      obtain ⟨hRest, hLength⟩ := split?_eq_some_iff.1 hSplit
      have hBytes : (bytes count).run cursor =
          .ok (found.1, ⟨cursor.offset + count, found.2⟩) := by
        simp only [bytes, StateT.run, hSplit]
      rw [hBytes]
      constructor
      · intro hFound
        cases hFound
        exact ⟨hLength, hRest, by rw [hLength]⟩
      · intro hGiven
        rcases hGiven with ⟨hCount, hTaken, hOffset⟩
        cases hSplit.symm.trans (split?_eq_some_iff.2 ⟨hTaken, hCount⟩)
        rw [← hCount, ← hOffset]

end Decoder

end AnnotationDefaults
