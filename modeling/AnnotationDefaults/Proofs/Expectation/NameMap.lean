import AnnotationDefaults.Expectation.NameMap
import Mathlib.Data.List.Nodup

set_option autoImplicit false

/-!
Lookups in finite maps from names. The order of entries only fixes how a map is
listed: a lookup sees the last value inserted under a name, and listing a map and
collecting the list again changes nothing.
-/

namespace AnnotationDefaults.NameMap

variable {α β : Type}

theorem ext {left right : NameMap α} (hEntries : left.entries = right.entries) : left = right := by
  cases left
  cases right
  cases hEntries
  rfl

/-! ### Insertion -/

private theorem find?_insertEntry (name other : String) (value : α) (entries : List (String × α)) :
    ((insertEntry name value entries).find? fun entry => entry.1 == other) =
      if name = other then some (name, value)
      else entries.find? fun entry => entry.1 == other := by
  induction entries with
  | nil =>
      by_cases hOther : name = other
      · simp [insertEntry, hOther]
      · simp [insertEntry, hOther]
  | cons first rest ih =>
      unfold insertEntry
      split
      · by_cases hOther : name = other
        · simp [hOther]
        · simp [hOther]
      · split
        · rename_i hSame
          by_cases hOther : name = other
          · simp [hOther]
          · have hFirst : ¬ first.1 = other := hSame ▸ hOther
            simp [hOther, hFirst]
        · rename_i hNotSame
          rw [List.find?_cons, ih, List.find?_cons]
          by_cases hFirst : first.1 = other
          · have hOther : ¬ name = other := fun hOther => hNotSame (hOther.trans hFirst.symm)
            simp [hFirst, hOther]
          · rw [beq_false_of_ne hFirst]

theorem get?_insert (map : NameMap α) (name other : String) (value : α) :
    (map.insert name value).get? other = if name = other then some value else map.get? other := by
  rw [get?, insert, find?_insertEntry]
  by_cases hOther : name = other
  · rw [if_pos hOther, if_pos hOther, Option.map_some]
  · rw [if_neg hOther, if_neg hOther, get?]

theorem map_insert (convert : α → β) (source : NameMap α) (name : String) (value : α) :
    NameMap.map convert (source.insert name value) =
      (NameMap.map convert source).insert name (convert value) := by
  apply ext
  rw [map, insert, insert, map]
  dsimp only
  induction source.entries with
  | nil => rfl
  | cons first rest ih =>
      rw [List.map_cons, insertEntry, insertEntry]
      dsimp only
      split
      · rfl
      · split
        · rfl
        · rw [List.map_cons, ih]

private theorem insertEntry_eq_append {name : String} {value : α} {entries : List (String × α)}
    (hGreatest : ∀ entry ∈ entries, entry.1 < name) :
    insertEntry name value entries = entries ++ [(name, value)] := by
  induction entries with
  | nil => rfl
  | cons first rest ih =>
      rw [List.forall_mem_cons] at hGreatest
      have hNotLess : ¬ name < first.1 := String.lt_asymm hGreatest.1
      have hNotSame : ¬ name = first.1 := fun hSame => String.lt_irrefl _ (hSame ▸ hGreatest.1)
      rw [insertEntry, if_neg hNotLess, if_neg hNotSame, ih hGreatest.2, List.cons_append]

/-! ### Collecting a list -/

def insertAll (map : NameMap α) (entries : List (String × α)) : NameMap α :=
  entries.foldl (fun map entry => map.insert entry.1 entry.2) map

theorem insertAll_cons (map : NameMap α) (entry : String × α) (rest : List (String × α)) :
    map.insertAll (entry :: rest) = (map.insert entry.1 entry.2).insertAll rest := rfl

theorem insertAll_append (map : NameMap α) (first second : List (String × α)) :
    map.insertAll (first ++ second) = (map.insertAll first).insertAll second :=
  List.foldl_append

private theorem entries_insertAll {map : NameMap α} {rest : List (String × α)}
    (hAscending : (map.entries ++ rest).Pairwise fun first second => first.1 < second.1) :
    (map.insertAll rest).entries = map.entries ++ rest := by
  induction rest generalizing map with
  | nil => exact (List.append_nil _).symm
  | cons entry rest ih =>
      have hGreatest : ∀ other ∈ map.entries, other.1 < entry.1 := fun other hMem =>
        (List.pairwise_append.1 hAscending).2.2 other hMem entry List.mem_cons_self
      have hInserted : (map.insert entry.1 entry.2).entries = map.entries ++ [entry] :=
        insertEntry_eq_append hGreatest
      have hSplit : map.entries ++ entry :: rest =
          (map.insert entry.1 entry.2).entries ++ rest := by
        rw [hInserted, List.append_assoc, List.singleton_append]
      rw [hSplit] at hAscending ⊢
      exact ih hAscending

theorem ofList_entries (map : NameMap α) : ofList map.entries = map := by
  have hAscending : ((empty : NameMap α).entries ++ map.entries).Pairwise
      fun first second => first.1 < second.1 := map.ascending
  exact ext (entries_insertAll hAscending)

theorem map_insertAll (convert : α → β) (source : NameMap α) (entries : List (String × α)) :
    NameMap.map convert (source.insertAll entries) =
      (NameMap.map convert source).insertAll
        (entries.map fun entry => (entry.1, convert entry.2)) := by
  induction entries generalizing source with
  | nil => rfl
  | cons entry rest ih => rw [insertAll_cons, ih, map_insert, List.map_cons, insertAll_cons]

theorem mem_entries_insertAll {map : NameMap α} {entries : List (String × α)}
    {entry : String × α} (hMem : entry ∈ (map.insertAll entries).entries) :
    entry ∈ map.entries ∨ entry ∈ entries := by
  induction entries generalizing map with
  | nil => exact Or.inl hMem
  | cons first rest ih =>
      rcases ih hMem with hInserted | hRest
      · rcases mem_insertEntry hInserted with rfl | hMap
        · exact Or.inr List.mem_cons_self
        · exact Or.inl hMap
      · exact Or.inr (List.mem_cons_of_mem _ hRest)

theorem mem_entries_of_get? {map : NameMap α} {name : String} {value : α}
    (hFound : map.get? name = some value) : (name, value) ∈ map.entries := by
  rcases Option.map_eq_some_iff.1 hFound with ⟨entry, hEntry, rfl⟩
  have hName := List.find?_some hEntry
  rw [beq_iff_eq] at hName
  rw [← hName]
  exact List.mem_of_find?_eq_some hEntry

private theorem get?_insertAll_of_not_mem {map : NameMap α} {name : String}
    {entries : List (String × α)} (hAbsent : name ∉ entries.map (·.1)) :
    (map.insertAll entries).get? name = map.get? name := by
  induction entries generalizing map with
  | nil => rfl
  | cons entry rest ih =>
      rw [List.map_cons, List.mem_cons, not_or] at hAbsent
      rw [insertAll_cons, ih hAbsent.2, get?_insert, if_neg (Ne.symm hAbsent.1)]

theorem get?_insertAll_of_mem {map : NameMap α} {name : String} {value : α}
    {entries : List (String × α)} (hNodup : (entries.map (·.1)).Nodup)
    (hMem : (name, value) ∈ entries) : (map.insertAll entries).get? name = some value := by
  induction entries generalizing map with
  | nil => cases hMem
  | cons entry rest ih =>
      rw [List.map_cons, List.nodup_cons] at hNodup
      rw [insertAll_cons]
      rcases List.mem_cons.1 hMem with rfl | hMem
      · rw [get?_insertAll_of_not_mem hNodup.1, get?_insert, if_pos rfl]
      · exact ih hNodup.2 hMem

end AnnotationDefaults.NameMap
