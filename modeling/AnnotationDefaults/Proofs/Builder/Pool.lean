import AnnotationDefaults.Builder.Pool
import AnnotationDefaults.Proofs.ConstantPool.Format
import Mathlib.Algebra.Ring.Nat
import Mathlib.Data.List.Infix
import Mathlib.Data.List.Nodup

set_option autoImplicit false

/-!
Pools under construction. The bytes, the next slot and the index of a builder belong together:
the bytes are those of the constants that the keys stand for, the next slot is the one behind
them, and every key has the slot where its constant begins. Interning keeps it so as long as
slots last, and only ever adds keys. So an index that was given out keeps its constant
whatever is interned later, and what a computation makes of such indices is described in the
pool of every later builder.
-/

namespace AnnotationDefaults

namespace PoolKey

/-! ### Keys and constants -/

variable {index : List (PoolKey × UInt16)} {key other : PoolKey}

/-- The constant that a key stands for; a class refers to the index of its name. -/
def constant (index : List (PoolKey × UInt16)) : PoolKey → Constant
  | .utf8 content => .utf8 content
  | .integer value => .integer value
  | .float bits => .float bits
  | .long value => .long value
  | .double bits => .double bits
  | .classRef name => .classRef ((index.lookup (.utf8 name)).getD 0)

def IsReady (index : List (PoolKey × UInt16)) : PoolKey → Prop
  | .classRef name => .utf8 name ∈ index.map Prod.fst
  | _ => True

/-- The key is found at the index; a class is known by its name. -/
def IsAt (pool : ConstantPool) (slot : UInt16) : PoolKey → Prop
  | .classRef name => pool.className slot = .ok name
  | key => pool.get slot = .ok (key.constant [])

/-- A two-byte number counts the bytes of a text. -/
def HasShortText : PoolKey → Prop
  | .utf8 content => (ModifiedUtf8.encode content).length ≤ 65535
  | _ => True

instance decidableHasShortText : (key : PoolKey) → Decidable key.HasShortText
  | .utf8 content => inferInstanceAs (Decidable ((ModifiedUtf8.encode content).length ≤ 65535))
  | .integer _ | .float _ | .long _ | .double _ | .classRef _ =>
      inferInstanceAs (Decidable True)

/-- A reader passes over as many slots as a key moves the next slot. -/
theorem length_slots_constant (index : List (PoolKey × UInt16)) (key : PoolKey) :
    (key.constant index).slots.length = key.slots.toNat := by
  cases key with
  | _ => rfl

theorem not_mem_of_lookup_eq_none (hNone : index.lookup key = none) :
    key ∉ index.map Prod.fst := by
  intro hMem
  obtain ⟨entry, hEntry, rfl⟩ := List.mem_map.1 hMem
  exact bne_iff_ne.1 (List.lookup_eq_none_iff.1 hNone entry hEntry) rfl

theorem slots_pos (key : PoolKey) : 0 < key.slots.toNat := by
  cases key with
  | _ => exact Nat.succ_pos _

theorem mem_of_lookup_eq_some {slot : UInt16} (hFound : index.lookup key = some slot) :
    (key, slot) ∈ index := by
  obtain ⟨before, after, hIndex, -⟩ := List.lookup_eq_some_iff.1 hFound
  rw [hIndex]
  exact List.mem_append_right _ List.mem_cons_self

theorem exists_lookup_of_ready {name : String} (hReady : (classRef name).IsReady index) :
    ∃ slot, index.lookup (.utf8 name) = some slot ∧
      (classRef name).constant index = .classRef slot := by
  cases hFound : index.lookup (.utf8 name) with
  | none => exact absurd hReady (not_mem_of_lookup_eq_none hFound)
  | some slot => exact ⟨slot, rfl, by rw [constant, hFound]; rfl⟩

theorem constant_append (hReady : key.IsReady index) (added : List (PoolKey × UInt16)) :
    key.constant (index ++ added) = key.constant index := by
  cases key with
  | classRef name =>
      obtain ⟨slot, hSlot, hConstant⟩ := exists_lookup_of_ready hReady
      rw [hConstant, constant, List.lookup_append, hSlot]
      rfl
  | _ => rfl

theorem IsReady.append (hReady : key.IsReady index) (added : List (PoolKey × UInt16)) :
    key.IsReady (index ++ added) := by
  cases key with
  | classRef name =>
      rw [IsReady, List.map_append]
      exact List.mem_append_left _ hReady
  | _ => trivial

end PoolKey

namespace PoolBuilder

/-! ### Sound builders -/

def constants (builder : PoolBuilder) : List Constant :=
  builder.index.map fun entry => entry.1.constant builder.index

def pool (builder : PoolBuilder) : ConstantPool := .ofConstants builder.constants

/-- How many slots the keys fill with slot zero, however many there are. -/
def slotCount (builder : PoolBuilder) : Nat :=
  1 + (builder.index.map fun entry => entry.1.slots.toNat).sum

/-- The bytes, the next slot and the index belong together. -/
structure IsSound (builder : PoolBuilder) : Prop where
  bytes_eq : builder.bytes = builder.constants.flatMap Constant.encode
  next_eq : builder.leaveSlotZero.next.toNat = builder.slotCount
  ready : ∀ entry ∈ builder.index, entry.1.IsReady builder.index
  places : ∀ entry ∈ builder.index,
    ConstantPool.Places builder.constants (entry.1.constant builder.index) entry.2.toNat
  distinct : builder.constants.Nodup

variable {builder later : PoolBuilder} {key other : PoolKey} {slot : UInt16}

theorem isSound_empty : empty.IsSound where
  bytes_eq := rfl
  next_eq := rfl
  ready := List.forall_mem_nil _
  places := List.forall_mem_nil _
  distinct := List.nodup_nil

theorem length_flatMap_slots (builder : PoolBuilder) :
    1 + (builder.constants.flatMap Constant.slots).length = builder.slotCount := by
  rw [slotCount, constants, List.length_flatMap, List.map_map]
  congr 3
  funext entry
  exact PoolKey.length_slots_constant _ _

theorem slotCount_le_of_isPrefix (hLater : builder.index <+: later.index) :
    builder.slotCount ≤ later.slotCount := by
  obtain ⟨added, hAdded⟩ := hLater
  rw [slotCount, slotCount, ← hAdded, List.map_append, List.sum_append]
  omega

theorem IsSound.slotCount_le (hSound : builder.IsSound) : builder.slotCount ≤ 65535 := by
  rw [← hSound.next_eq]
  exact Nat.le_of_lt_succ (UInt16.toNat_lt _)

theorem IsSound.get_eq (hSound : builder.IsSound) (hMem : (key, slot) ∈ builder.index) :
    builder.pool.get slot = .ok (key.constant builder.index) := by
  rw [ConstantPool.get_eq_ok_iff]
  exact (hSound.places _ hMem).slot?_eq

theorem IsSound.constant_injective (hSound : builder.IsSound) (hReady : key.IsReady builder.index)
    (hOther : other.IsReady builder.index)
    (hSame : key.constant builder.index = other.constant builder.index) : key = other := by
  cases key with
  | classRef name =>
      cases other with
      | classRef name' =>
          obtain ⟨slot, hSlot, hConstant⟩ := PoolKey.exists_lookup_of_ready hReady
          obtain ⟨slot', hSlot', hConstant'⟩ := PoolKey.exists_lookup_of_ready hOther
          rw [hConstant, hConstant'] at hSame
          cases hSame
          have hName := hSound.get_eq (PoolKey.mem_of_lookup_eq_some hSlot)
          have hName' := hSound.get_eq (PoolKey.mem_of_lookup_eq_some hSlot')
          cases hName.symm.trans hName'
          rfl
      | _ => cases hSame
  | _ =>
      cases other with
      | _ => grind [PoolKey.constant]

/-! ### Interning -/

theorem index_leaveSlotZero (builder : PoolBuilder) :
    builder.leaveSlotZero.index = builder.index := by
  rw [leaveSlotZero]
  split_ifs
  · rfl
  · rfl

theorem bytes_leaveSlotZero (builder : PoolBuilder) :
    builder.leaveSlotZero.bytes = builder.bytes := by
  rw [leaveSlotZero]
  split_ifs
  · rfl
  · rfl

theorem leaveSlotZero_of_ne_zero (hNext : builder.next ≠ 0) : builder.leaveSlotZero = builder :=
  if_neg hNext

theorem next_leaveSlotZero_ne_zero (builder : PoolBuilder) : builder.leaveSlotZero.next ≠ 0 := by
  rw [leaveSlotZero]
  split_ifs with hNext
  · exact (by decide : (1 : UInt16) ≠ 0)
  · exact hNext

theorem next_ne_zero_of_toNat_eq (hNext : builder.next.toNat = builder.slotCount) :
    builder.next ≠ 0 := by
  intro hZero
  rw [hZero, UInt16.toNat_zero, slotCount] at hNext
  omega

theorem IsSound.next_ne_zero (hSound : builder.IsSound) (hMem : (key, slot) ∈ builder.index) :
    builder.next ≠ 0 := by
  intro hZero
  have hCount := hSound.next_eq
  obtain ⟨before, after, hIndex⟩ := List.append_of_mem hMem
  rw [PoolBuilder.leaveSlotZero, if_pos hZero, slotCount, hIndex, List.map_append, List.map_cons,
    List.sum_append, List.sum_cons] at hCount
  have hOne : (1 : UInt16).toNat = 1 := rfl
  have hSlots := key.slots_pos
  dsimp only at hCount
  omega

theorem IsSound.leaveSlotZero (hSound : builder.IsSound) : builder.leaveSlotZero.IsSound := by
  have hIndex := index_leaveSlotZero builder
  have hConstants : builder.leaveSlotZero.constants = builder.constants := by
    rw [constants, constants, hIndex]
  constructor
  · rw [bytes_leaveSlotZero, hConstants, hSound.bytes_eq]
  · rw [leaveSlotZero_of_ne_zero (next_leaveSlotZero_ne_zero builder), hSound.next_eq, slotCount,
      slotCount, hIndex]
  · rw [hIndex]
    exact hSound.ready
  · rw [hIndex, hConstants]
    exact hSound.places
  · rw [hConstants]
    exact hSound.distinct

def added (builder : PoolBuilder) (key : PoolKey) (record : List UInt8) : PoolBuilder :=
  ((add key record).run builder).2

@[simp] theorem bytes_added (record : List UInt8) :
    (builder.added key record).bytes = builder.bytes ++ record := rfl

@[simp] theorem next_added (record : List UInt8) :
    (builder.added key record).next = builder.next + key.slots := rfl

@[simp] theorem index_added (record : List UInt8) :
    (builder.added key record).index = builder.index ++ [(key, builder.next)] := rfl

theorem slotCount_added (record : List UInt8) :
    (builder.added key record).slotCount = builder.slotCount + key.slots.toNat := by
  rw [slotCount, slotCount, index_added, List.map_append, List.sum_append, List.map_singleton,
    List.sum_singleton, Nat.add_assoc]

theorem constants_added (hSound : builder.IsSound) (hReady : key.IsReady builder.index)
    (record : List UInt8) :
    (builder.added key record).constants =
      builder.constants ++ [key.constant builder.index] := by
  rw [constants, index_added, List.map_append, List.map_singleton, PoolKey.constant_append hReady]
  congr 1
  apply List.map_congr_left
  intro entry hEntry
  exact PoolKey.constant_append (hSound.ready entry hEntry) _

/-- With room for the key the next slot does not wrap. -/
theorem IsSound.next_added_toNat (hSound : builder.IsSound) (hNext : builder.next ≠ 0)
    {record : List UInt8} (hRoom : (builder.added key record).slotCount ≤ 65535) :
    (builder.added key record).next.toNat = (builder.added key record).slotCount := by
  have hCount := hSound.next_eq
  rw [leaveSlotZero_of_ne_zero hNext] at hCount
  rw [slotCount_added] at hRoom ⊢
  rw [next_added, UInt16.toNat_add, hCount]
  exact Nat.mod_eq_of_lt (Nat.lt_succ_of_le hRoom)

theorem IsSound.places_added (hSound : builder.IsSound) (hNext : builder.next ≠ 0)
    (hReady : key.IsReady builder.index) (record : List UInt8) :
    ∀ entry ∈ (builder.added key record).index,
      ConstantPool.Places (builder.added key record).constants
        (entry.1.constant (builder.added key record).index) entry.2.toNat := by
  rw [index_added, constants_added hSound hReady]
  intro entry hEntry
  rcases List.mem_append.1 hEntry with hOld | hNew
  · rw [PoolKey.constant_append (hSound.ready entry hOld)]
    exact (hSound.places entry hOld).append _
  · -- The constants in front of the new one fill the slots below its own.
    cases List.mem_singleton.1 hNew
    have hCount := hSound.next_eq
    rw [leaveSlotZero_of_ne_zero hNext] at hCount
    rw [PoolKey.constant_append hReady]
    exact ⟨builder.constants, [], rfl, by rw [length_flatMap_slots, hCount]⟩

theorem IsSound.nodup_added (hSound : builder.IsSound)
    (hAbsent : key ∉ builder.index.map Prod.fst) (hReady : key.IsReady builder.index)
    (record : List UInt8) : (builder.added key record).constants.Nodup := by
  rw [constants_added hSound hReady, List.nodup_append_comm]
  apply List.nodup_cons.2
  constructor
  · intro hMem
    obtain ⟨entry, hEntry, hSame⟩ := List.mem_map.1 hMem
    apply hAbsent
    rw [← hSound.constant_injective (hSound.ready entry hEntry) hReady hSame]
    exact List.mem_map_of_mem hEntry
  · exact hSound.distinct

theorem IsSound.added (hSound : builder.IsSound) (hNext : builder.next ≠ 0)
    (hAbsent : key ∉ builder.index.map Prod.fst) (hReady : key.IsReady builder.index)
    {record : List UInt8} (hRecord : record = (key.constant builder.index).encode)
    (hRoom : (builder.added key record).slotCount ≤ 65535) :
    (builder.added key record).IsSound := by
  constructor
  · rw [bytes_added, constants_added hSound hReady, List.flatMap_append, hSound.bytes_eq, hRecord,
      List.flatMap_singleton]
  · have hTotal := hSound.next_added_toNat hNext hRoom
    rw [leaveSlotZero_of_ne_zero (next_ne_zero_of_toNat_eq hTotal), hTotal]
  · rw [index_added]
    intro entry hEntry
    rcases List.mem_append.1 hEntry with hOld | hNew
    · exact (hSound.ready entry hOld).append _
    · cases List.mem_singleton.1 hNew
      exact hReady.append _
  · exact hSound.places_added hNext hReady record
  · exact hSound.nodup_added hAbsent hReady record

/-- The computation gives the key an index. It only adds keys, and what it leaves is sound
again if slots last. -/
structure Interns (key : PoolKey) (computation : StateM PoolBuilder UInt16)
    (builder : PoolBuilder) : Prop where
  grows : builder.index <+: (computation.run builder).2.index
  noted : (computation.run builder).2.index.lookup key = some (computation.run builder).1
  sound : builder.IsSound → (computation.run builder).2.slotCount ≤ 65535 →
    (computation.run builder).2.IsSound

theorem interns_add {record : List UInt8} (hNext : builder.IsSound → builder.next ≠ 0)
    (hAbsent : builder.index.lookup key = none) (hReady : key.IsReady builder.index)
    (hRecord : record = (key.constant builder.index).encode) :
    Interns key (add key record) builder where
  grows := List.prefix_append _ _
  noted := by
    have hIndex : ((add key record).run builder).2.index =
      builder.index ++ [(key, builder.next)] := index_added record
    rw [hIndex, List.lookup_append, hAbsent, List.lookup_cons_self]
    rfl
  sound hSound hRoom :=
    hSound.added (hNext hSound) (PoolKey.not_mem_of_lookup_eq_none hAbsent) hReady hRecord hRoom

theorem interns_indexOrAdd {adding : StateM PoolBuilder UInt16}
    (hAdding : ∀ builder : PoolBuilder, builder.next ≠ 0 → builder.index.lookup key = none →
      Interns key adding builder) (builder : PoolBuilder) :
    Interns key (indexOrAdd key adding) builder := by
  cases hFound : builder.index.lookup key with
  | some slot =>
      have hRun : (indexOrAdd key adding).run builder = (slot, builder) := by
        simp only [indexOrAdd, StateT.run, hFound]
      constructor
      · rw [hRun]
      · rw [hRun]
        exact hFound
      · rw [hRun]
        exact fun hSound _ => hSound
  | none =>
      have hRun : (indexOrAdd key adding).run builder = adding.run builder.leaveSlotZero := by
        simp only [indexOrAdd, StateT.run, hFound]
      have hIndex := index_leaveSlotZero builder
      have hInterns := hAdding builder.leaveSlotZero (next_leaveSlotZero_ne_zero builder)
        (by rw [hIndex, hFound])
      constructor
      · rw [hRun, ← hIndex]
        exact hInterns.grows
      · rw [hRun]
        exact hInterns.noted
      · rw [hRun]
        exact fun hSound => hInterns.sound hSound.leaveSlotZero

theorem interns_plain {record : List UInt8} (hReady : ∀ index, key.IsReady index)
    (hRecord : ∀ index, record = (key.constant index).encode) (builder : PoolBuilder) :
    Interns key (indexOrAdd key (add key record)) builder := by
  refine interns_indexOrAdd (fun builder hNext hAbsent => ?_) builder
  exact interns_add (fun _ => hNext) hAbsent (hReady _) (hRecord _)

theorem interns_text (content : String) (builder : PoolBuilder) :
    Interns (.utf8 content) (text content) builder := by
  apply interns_plain
  · exact fun _ => trivial
  · exact fun _ => rfl

theorem lookup_classRef_text {name content : String}
    (hAbsent : builder.index.lookup (.classRef name) = none) :
    ((text content).run builder).2.index.lookup (.classRef name) = none := by
  cases hFound : builder.index.lookup (.utf8 content) with
  | some slot =>
      have hRun : (text content).run builder = (slot, builder) := by
        simp only [text, indexOrAdd, StateT.run, hFound]
      rw [hRun, hAbsent]
  | none =>
      have hRun : ((text content).run builder).2.index =
          builder.index ++ [(.utf8 content, builder.leaveSlotZero.next)] := by
        simp only [text, indexOrAdd, StateT.run, hFound, add, index_leaveSlotZero]
      rw [hRun, List.lookup_append, hAbsent]
      rfl

theorem interns_classRef (name : String) (builder : PoolBuilder) :
    Interns (.classRef name) (intern (.classRef name)) builder := by
  refine interns_indexOrAdd (fun builder hNext hAbsent => ?_) builder
  have hName := interns_text name builder
  have hReady : (PoolKey.classRef name).IsReady ((text name).run builder).2.index :=
    List.mem_map_of_mem (PoolKey.mem_of_lookup_eq_some hName.noted)
  have hAdd : Interns (.classRef name)
      (add (.classRef name) (7 :: bigEndian 2 ((text name).run builder).1.toNat))
      ((text name).run builder).2 := by
    refine interns_add (fun hSound => ?_) (lookup_classRef_text hAbsent) hReady ?_
    · exact hSound.next_ne_zero (PoolKey.mem_of_lookup_eq_some hName.noted)
    · rw [PoolKey.constant, hName.noted]
      rfl
  constructor
  · exact hName.grows.trans hAdd.grows
  · exact hAdd.noted
  · intro hSound hRoom
    exact hAdd.sound (hName.sound hSound ((slotCount_le_of_isPrefix hAdd.grows).trans hRoom)) hRoom

theorem interns_intern (key : PoolKey) (builder : PoolBuilder) :
    Interns key (intern key) builder := by
  cases key with
  | utf8 content => exact interns_text content builder
  | classRef name => exact interns_classRef name builder
  | _ =>
      apply interns_plain
      · exact fun _ => trivial
      · exact fun _ => rfl

/-! ### Computations on builders -/

theorem lookup_of_isPrefix (hLater : builder.index <+: later.index)
    (hNoted : builder.index.lookup key = some slot) : later.index.lookup key = some slot := by
  obtain ⟨added, hAdded⟩ := hLater
  rw [← hAdded, List.lookup_append, hNoted]
  rfl

theorem IsSound.isAt (hSound : builder.IsSound) (hNoted : builder.index.lookup key = some slot) :
    key.IsAt builder.pool slot := by
  have hMem := PoolKey.mem_of_lookup_eq_some hNoted
  have hGet := hSound.get_eq hMem
  cases key with
  | classRef name =>
      obtain ⟨nameSlot, hName, hConstant⟩ := PoolKey.exists_lookup_of_ready (hSound.ready _ hMem)
      rw [hConstant] at hGet
      exact ConstantPool.className_eq_ok_iff.2
        ⟨nameSlot, hGet, hSound.get_eq (PoolKey.mem_of_lookup_eq_some hName)⟩
  | _ => exact hGet

/-- The computation only adds keys, it leaves builders sound if slots last, and its result is
as described in the pool of every later builder. -/
structure Provides {α : Type} (computation : StateM PoolBuilder α)
    (holds : ConstantPool → α → Prop) : Prop where
  grows : ∀ builder, builder.index <+: (computation.run builder).2.index
  sound : ∀ builder, builder.IsSound → (computation.run builder).2.slotCount ≤ 65535 →
    (computation.run builder).2.IsSound
  result : ∀ builder latest : PoolBuilder, (computation.run builder).2.index <+: latest.index →
    latest.IsSound → holds latest.pool (computation.run builder).1

namespace Provides

variable {α β : Type} {first : StateM PoolBuilder α} {next : α → StateM PoolBuilder β}
  {holds : ConstantPool → α → Prop}

theorem pure (value : α) (hHolds : ∀ pool, holds pool value) :
    Provides (Pure.pure value) holds where
  grows _ := List.prefix_rfl
  sound _ hSound _ := hSound
  result _ latest _ _ := hHolds latest.pool

/-- What is to hold of the last result is shown where the first result is as described. -/
theorem bind {holds' : ConstantPool → β → Prop} (hFirst : Provides first holds)
    (hNext : ∀ value, Provides (next value) fun pool result =>
      holds pool value → holds' pool result) :
    Provides (first >>= next) holds' where
  grows builder := (hFirst.grows builder).trans ((hNext _).grows _)
  sound builder hSound hRoom :=
    -- There was room in between as well.
    (hNext _).sound _ (hFirst.sound builder hSound
      ((slotCount_le_of_isPrefix ((hNext _).grows _)).trans hRoom)) hRoom
  result builder latest hLater hSound :=
    (hNext _).result _ latest hLater hSound
      (hFirst.result builder latest (((hNext _).grows _).trans hLater) hSound)

theorem mono {holds' : ConstantPool → α → Prop} (hFirst : Provides first holds)
    (hWeaker : ∀ pool value, holds pool value → holds' pool value) : Provides first holds' where
  grows := hFirst.grows
  sound := hFirst.sound
  result builder latest hLater hSound :=
    hWeaker latest.pool _ (hFirst.result builder latest hLater hSound)

theorem convert {holds' : ConstantPool → β → Prop} (hFirst : Provides first holds)
    (build : α → β) (hBuild : ∀ pool value, holds pool value → holds' pool (build value)) :
    Provides (do return build (← first)) holds' where
  grows := hFirst.grows
  sound := hFirst.sound
  result builder latest hLater hSound :=
    hBuild latest.pool _ (hFirst.result builder latest hLater hSound)

end Provides

theorem provides_intern (key : PoolKey) :
    Provides (intern key) fun pool index => key.IsAt pool index where
  grows builder := (interns_intern key builder).grows
  sound builder := (interns_intern key builder).sound
  result builder _ hLater hSound :=
    hSound.isAt (lookup_of_isPrefix hLater (interns_intern key builder).noted)

theorem provides_text (content : String) :
    Provides (text content) fun pool index => pool.get index = .ok (.utf8 content) :=
  provides_intern (.utf8 content)

/-! ### The bytes of a pool -/

structure WithinLimits (builder : PoolBuilder) : Prop where
  slots : builder.slotCount ≤ 65535
  texts : ∀ entry ∈ builder.index, entry.1.HasShortText

theorem IsSound.encode_pool (hSound : builder.IsSound) :
    builder.pool.encode =
      bigEndian 2 builder.leaveSlotZero.next.toNat ++ builder.bytes := by
  rw [pool, ConstantPool.encode_ofConstants, ConstantPool.size_ofConstants, length_flatMap_slots,
    hSound.next_eq, hSound.bytes_eq]

theorem isEncodable_of_texts (hTexts : ∀ entry ∈ builder.index, entry.1.HasShortText)
    {constant : Constant} (hMem : constant ∈ builder.constants) : constant.IsEncodable := by
  obtain ⟨entry, hEntry, rfl⟩ := List.mem_map.1 hMem
  have hShort := hTexts entry hEntry
  cases hKey : entry.1 with
  | utf8 content =>
      rw [hKey] at hShort
      exact Nat.lt_succ_of_le hShort
  | _ => exact trivial

theorem IsSound.run_decode (hSound : builder.IsSound)
    (hTexts : ∀ entry ∈ builder.index, entry.1.HasShortText) {cursor after : Cursor}
    (hSpans : cursor.Spans builder.pool.encode after) :
    ConstantPool.decode.run cursor = .ok (builder.pool, after) := by
  have hSize : builder.pool.size < UInt16.size := by
    rw [pool, ConstantPool.size_ofConstants, length_flatMap_slots]
    exact Nat.lt_succ_of_le hSound.slotCount_le
  exact ConstantPool.run_decode (fun _ => isEncodable_of_texts hTexts) hSize hSpans

end PoolBuilder

end AnnotationDefaults
