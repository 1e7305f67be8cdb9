import AnnotationDefaults.ConstantPool.Format
import AnnotationDefaults.Proofs.Success
import Mathlib.Data.List.Nodup

set_option autoImplicit false

/-!
Lookups of constants. A lookup of one kind succeeds exactly if the slot holds a constant of
that kind, and a class name is a text behind a class reference. In a pool that constants fill
one after the other, each is found where it begins, and of distinct constants nowhere else.
-/

namespace AnnotationDefaults

theorem Constant.slots_eq_cons (constant : Constant) :
    ∃ rest, constant.slots = some constant :: rest ∧ ∀ slot ∈ rest, slot = none := by
  rw [slots]
  cases constant.isWide with
  | true => exact ⟨[none], rfl, fun slot hMem => List.mem_singleton.1 hMem⟩
  | false => exact ⟨[], rfl, List.forall_mem_nil _⟩

namespace ConstantPool

variable {pool : ConstantPool} {index : UInt16} {text : String}

theorem get_eq_ok_iff {constant : Constant} :
    pool.get index = .ok constant ↔ pool.slot? index.toNat = some constant := by
  rw [get]
  cases hSlot : pool.slot? index.toNat with
  | none => simp
  | some found => simp

theorem utf8_eq_ok_iff : pool.utf8 index = .ok text ↔ pool.get index = .ok (.utf8 text) := by
  rw [utf8, bind_eq_ok_iff]
  constructor
  · rintro ⟨constant, hGet, hText⟩
    cases constant with
    | utf8 found =>
        cases hText
        exact hGet
    | _ => cases hText
  · intro hGet
    exact ⟨.utf8 text, hGet, rfl⟩

theorem className_eq_ok_iff :
    pool.className index = .ok text ↔
      ∃ name, pool.get index = .ok (.classRef name) ∧ pool.get name = .ok (.utf8 text) := by
  rw [className, bind_eq_ok_iff]
  constructor
  · rintro ⟨constant, hGet, hText⟩
    cases constant with
    | classRef name => exact ⟨name, hGet, utf8_eq_ok_iff.1 hText⟩
    | _ => cases hText
  · rintro ⟨name, hGet, hText⟩
    exact ⟨.classRef name, hGet, utf8_eq_ok_iff.2 hText⟩

/-! ### Where constants stand -/

def ofConstants (constants : List Constant) : ConstantPool :=
  ofSlots (constants.flatMap Constant.slots)

/-- The constant begins at the slot behind those of the constants in front of it. -/
def Places (constants : List Constant) (constant : Constant) (slot : Nat) : Prop :=
  ∃ before after, constants = before ++ constant :: after ∧
    slot = 1 + (before.flatMap Constant.slots).length

variable {constants : List Constant} {constant : Constant} {slot : Nat}

theorem size_ofConstants :
    (ofConstants constants).size = 1 + (constants.flatMap Constant.slots).length := by
  rw [ofConstants, size, ofSlots, List.size_toArray, Nat.add_comm]

theorem slot?_ofConstants :
    (ofConstants constants).slot? (slot + 1) =
      ((constants.flatMap Constant.slots)[slot]?).join := by
  rw [slot?, ofConstants, ofSlots, List.getElem?_toArray]

theorem Places.append (hPlaces : Places constants constant slot) (added : List Constant) :
    Places (constants ++ added) constant slot := by
  obtain ⟨before, after, hConstants, hSlot⟩ := hPlaces
  exact ⟨before, after ++ added, by rw [hConstants, List.append_assoc]; rfl, hSlot⟩

theorem Places.slot?_eq (hPlaces : Places constants constant slot) :
    (ofConstants constants).slot? slot = some constant := by
  obtain ⟨before, after, hConstants, hSlot⟩ := hPlaces
  obtain ⟨rest, hSlots, -⟩ := constant.slots_eq_cons
  rw [hSlot, Nat.add_comm, slot?_ofConstants, hConstants, List.flatMap_append, List.flatMap_cons,
    hSlots, List.cons_append, List.getElem?_append_right (Nat.le_refl _), Nat.sub_self]
  rfl

private theorem exists_split_of_getElem?
    (hSlot : (constants.flatMap Constant.slots)[slot]? = some (some constant)) :
    ∃ before after, constants = before ++ constant :: after ∧
      slot = (before.flatMap Constant.slots).length := by
  induction constants generalizing slot with
  | nil => cases hSlot
  | cons first rest ih =>
      obtain ⟨others, hFirst, hOthers⟩ := first.slots_eq_cons
      rw [List.flatMap_cons, hFirst, List.cons_append] at hSlot
      cases slot with
      | zero =>
          cases hSlot
          exact ⟨[], rest, rfl, rfl⟩
      | succ slot =>
          rw [List.getElem?_cons_succ] at hSlot
          -- The second slot of a wide constant holds nothing.
          by_cases hInside : slot < others.length
          · rw [List.getElem?_append_left hInside] at hSlot
            cases hOthers _ (List.mem_of_getElem? hSlot)
          · rw [List.getElem?_append_right (Nat.not_lt.1 hInside)] at hSlot
            obtain ⟨before, after, hRest, hBefore⟩ := ih hSlot
            refine ⟨first :: before, after, by rw [hRest]; rfl, ?_⟩
            rw [List.flatMap_cons, List.length_append, ← hBefore, hFirst, List.length_cons]
            omega

theorem places_of_slot? (hSlot : (ofConstants constants).slot? slot = some constant) :
    Places constants constant slot := by
  cases slot with
  | zero => cases hSlot
  | succ slot =>
      rw [slot?_ofConstants, Option.join_eq_some_iff] at hSlot
      obtain ⟨before, after, hConstants, hBefore⟩ := exists_split_of_getElem? hSlot
      exact ⟨before, after, hConstants, by rw [Nat.add_comm, ← hBefore]⟩

theorem Places.unique {first second : Nat} (hDistinct : constants.Nodup)
    (hFirst : Places constants constant first) (hSecond : Places constants constant second) :
    first = second := by
  obtain ⟨before, after, hConstants, hBefore⟩ := hFirst
  obtain ⟨before', after', hConstants', hBefore'⟩ := hSecond
  rw [hConstants, List.nodup_middle, List.nodup_cons, List.mem_append, not_or] at hDistinct
  -- The constant is in neither side of the first split, so the second split is the same.
  have hSame := (List.append_cons_inj_of_notMem hDistinct.1.1 hDistinct.1.2).1
    (hConstants.symm.trans hConstants')
  rw [hBefore, hBefore', hSame.1]

theorem index_eq_of_get_eq_ok {other : UInt16} (hDistinct : constants.Nodup)
    (hIndex : (ofConstants constants).get index = .ok constant)
    (hOther : (ofConstants constants).get other = .ok constant) : index = other := by
  rw [get_eq_ok_iff] at hIndex hOther
  exact UInt16.toNat_inj.1
    (Places.unique hDistinct (places_of_slot? hIndex) (places_of_slot? hOther))

end ConstantPool

end AnnotationDefaults
