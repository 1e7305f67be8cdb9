import AnnotationDefaults.Proofs.Bytes.Decoding

set_option autoImplicit false

/-!
Readers whose input is cut or extended. A frugal reader depends on the bytes that it takes
and on nothing behind them, and it runs out of bytes wherever those are cut. Frugal readers
compose, so a format is frugal if its fields are.
-/

namespace AnnotationDefaults.Decoder

variable {α β : Type}

/-- The reader asks for more than is left, at the end of the input. -/
def RunsOut (decoder : Decoder α) (cursor : Cursor) : Prop :=
  ∃ offset need remaining, decoder.run cursor = .error (.unexpectedEnd offset need remaining) ∧
    offset + remaining = cursor.offset + cursor.remaining ∧ remaining < need

/-- Wherever the reader succeeds it takes some bytes: it does the same in front of any other
bytes, and it runs out if only a part of those bytes is there. -/
def IsFrugal (decoder : Decoder α) : Prop :=
  ∀ cursor value after, decoder.run cursor = .ok (value, after) →
    ∃ taken, cursor.Spans taken after ∧
      (∀ suffix, decoder.run ⟨cursor.offset, taken ++ suffix⟩ =
        .ok (value, ⟨after.offset, suffix⟩)) ∧
      ∀ part missing, taken = part ++ missing → missing ≠ [] →
        decoder.RunsOut ⟨cursor.offset, part⟩

/-! ### Sequences -/

theorem RunsOut.bind {first : Decoder α} (next : α → Decoder β) {cursor : Cursor}
    (hFirst : first.RunsOut cursor) : (first >>= next).RunsOut cursor := by
  rcases hFirst with ⟨offset, need, remaining, hRun, hEnd⟩
  refine ⟨offset, need, remaining, ?_, hEnd⟩
  rw [StateT.run_bind, hRun, error_bind]

theorem RunsOut.after {first : Decoder α} {next : α → Decoder β} {value : α}
    {cursor between : Cursor} (hFirst : first.run cursor = .ok (value, between))
    (hEnd : between.offset + between.remaining = cursor.offset + cursor.remaining)
    (hNext : (next value).RunsOut between) : (first >>= next).RunsOut cursor := by
  rcases hNext with ⟨offset, need, remaining, hRun, hSame, hMore⟩
  refine ⟨offset, need, remaining, ?_, hSame.trans hEnd, hMore⟩
  rw [StateT.run_bind, hFirst, ok_bind, hRun]

private theorem isFrugal_of_still {decoder : Decoder α}
    (hStill : ∀ cursor value after, decoder.run cursor = .ok (value, after) →
      cursor = after ∧ ∀ rest, decoder.run ⟨cursor.offset, rest⟩ =
        .ok (value, ⟨cursor.offset, rest⟩)) : IsFrugal decoder := by
  intro cursor value after hRun
  obtain ⟨rfl, hSame⟩ := hStill _ _ _ hRun
  refine ⟨[], Cursor.spans_nil_iff.2 rfl, hSame, ?_⟩
  intro part missing hTaken hMissing
  exact absurd (List.append_eq_nil_iff.1 hTaken.symm).2 hMissing

theorem isFrugal_pure (value : α) : IsFrugal (pure value : Decoder α) := by
  apply isFrugal_of_still
  intro cursor result after hRun
  obtain ⟨rfl, rfl⟩ := run_pure_eq_ok_iff.1 hRun
  exact ⟨rfl, fun rest => rfl⟩

theorem IsFrugal.bind {first : Decoder α} {next : α → Decoder β} (hFirst : IsFrugal first)
    (hNext : ∀ value, IsFrugal (next value)) : IsFrugal (first >>= next) := by
  intro cursor result after hRun
  obtain ⟨value, between, hHead, hTail⟩ := run_bind_eq_ok_iff.1 hRun
  obtain ⟨head, hSpansHead, hHeadSame, hHeadCut⟩ := hFirst _ _ _ hHead
  obtain ⟨tail, hSpansTail, hTailSame, hTailCut⟩ := hNext value _ _ _ hTail
  have hBetween : between.offset = cursor.offset + head.length := hSpansHead.2
  refine ⟨head ++ tail, hSpansHead.append hSpansTail, fun suffix => ?_, ?_⟩
  · rw [List.append_assoc]
    exact run_bind_eq_ok_iff.2 ⟨value, _, hHeadSame _, hTailSame suffix⟩
  · intro part missing hTaken hMissing
    -- The cut is within the bytes of the first reader, or behind them.
    have hBehind : ∀ rest, tail = rest ++ missing →
        (first >>= next).RunsOut ⟨cursor.offset, head ++ rest⟩ := by
      intro rest hRest
      refine RunsOut.after (hHeadSame rest) ?_ (hTailCut rest missing hRest hMissing)
      simp only [Cursor.remaining, List.length_append]
      omega
    rcases List.append_eq_append_iff.1 hTaken with ⟨rest, rfl, hTail⟩ | ⟨rest, rfl, rfl⟩
    · exact hBehind rest hTail
    · by_cases hRest : rest = []
      · subst hRest
        have hWhole := hBehind [] rfl
        rw [List.append_nil, List.append_nil] at hWhole
        exact hWhole
      · exact (hHeadCut part rest rfl hRest).bind next

theorem IsFrugal.converted {decoder : Decoder α} (hDecoder : IsFrugal decoder) (build : α → β) :
    IsFrugal (do return build (← decoder)) :=
  hDecoder.bind fun value => isFrugal_pure (build value)

/-! ### Single readers -/

theorem isFrugal_throw (cause : Fault) : IsFrugal (throw cause : Decoder α) := by
  intro cursor value after hRun
  cases hRun

theorem isFrugal_lift (answer : Except Fault α) : IsFrugal (liftM answer : Decoder α) := by
  cases answer with
  | error cause => exact isFrugal_throw cause
  | ok value => exact isFrugal_pure value

theorem isFrugal_offset : IsFrugal offset := by
  apply isFrugal_of_still
  intro cursor value after hRun
  cases hRun
  exact ⟨rfl, fun rest => rfl⟩

theorem isFrugal_bytes (count : Nat) : IsFrugal (bytes count) := by
  intro cursor value after hRun
  obtain ⟨hCount, hSpans⟩ := run_bytes_eq_ok_iff.1 hRun
  refine ⟨value, hSpans, fun suffix => ?_, ?_⟩
  · exact run_bytes_eq_ok_iff.2 ⟨hCount, rfl, hSpans.2⟩
  · intro part missing hTaken hMissing
    have hShort : part.length < count := by
      have hPositive := List.length_pos_iff.2 hMissing
      rw [← hCount, hTaken, List.length_append]
      omega
    refine ⟨cursor.offset, count, part.length, ?_, rfl, hShort⟩
    cases hSplit : split? count part with
    | none => simp only [bytes, StateT.run, hSplit, Cursor.remaining]
    | some found =>
        obtain ⟨hPart, hFound⟩ := split?_eq_some_iff.1 hSplit
        have hLength := congrArg List.length hPart
        rw [List.length_append] at hLength
        omega

theorem isFrugal_natural (width : Nat) : IsFrugal (natural width) :=
  (isFrugal_bytes width).converted bigEndianValue

theorem isFrugal_byte : IsFrugal byte := (isFrugal_natural 1).converted UInt8.ofNat

theorem isFrugal_short : IsFrugal short := (isFrugal_natural 2).converted UInt16.ofNat

theorem isFrugal_word : IsFrugal word := (isFrugal_natural 4).converted UInt32.ofNat

theorem isFrugal_doubleWord : IsFrugal doubleWord :=
  (isFrugal_natural 8).converted UInt64.ofNat

theorem isFrugal_signedWord : IsFrugal signedWord := isFrugal_word.converted UInt32.toInt32

theorem isFrugal_signedDoubleWord : IsFrugal signedDoubleWord :=
  isFrugal_doubleWord.converted UInt64.toInt64

/-! ### Tables -/

theorem IsFrugal.times {decoder : Decoder α} (hDecoder : IsFrugal decoder) (count : Nat) :
    IsFrugal (times decoder count) := by
  induction count with
  | zero => exact isFrugal_pure []
  | succ count ih => exact hDecoder.bind fun first => ih.converted (List.cons first)

theorem IsFrugal.counted {decoder : Decoder α} (hDecoder : IsFrugal decoder) :
    IsFrugal (counted decoder) :=
  isFrugal_short.bind fun count => hDecoder.times count.toNat

end AnnotationDefaults.Decoder
