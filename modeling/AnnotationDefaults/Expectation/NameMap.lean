set_option autoImplicit false

/-!
Finite maps from names, kept as entries in ascending order of names. The order is
part of the type, so two maps with the same entries are equal and every output
that lists a map lists it by name.
-/

namespace AnnotationDefaults

/-- Entries in strictly ascending order of names. -/
structure NameMap (α : Type) where
  entries : List (String × α)
  ascending : entries.Pairwise fun first second => first.1 < second.1

namespace NameMap

variable {α β : Type}

def empty : NameMap α := ⟨[], .nil⟩

/-- Puts an entry in its place, in front of the first greater name, or in the place
of the entry of the same name. -/
def insertEntry (name : String) (value : α) : List (String × α) → List (String × α)
  | [] => [(name, value)]
  | entry :: rest =>
      if name < entry.1 then (name, value) :: entry :: rest
      else if name = entry.1 then (name, value) :: rest
      else entry :: insertEntry name value rest

theorem mem_insertEntry {name : String} {value : α} {entries : List (String × α)}
    {entry : String × α} (hMem : entry ∈ insertEntry name value entries) :
    entry = (name, value) ∨ entry ∈ entries := by
  induction entries with
  | nil =>
      simp only [insertEntry, List.mem_singleton] at hMem
      exact Or.inl hMem
  | cons first rest ih =>
      simp only [insertEntry] at hMem
      split at hMem
      · rcases List.mem_cons.1 hMem with hFirst | hRest
        · exact Or.inl hFirst
        · exact Or.inr hRest
      · split at hMem
        · rcases List.mem_cons.1 hMem with hFirst | hRest
          · exact Or.inl hFirst
          · exact Or.inr (List.mem_cons_of_mem _ hRest)
        · rcases List.mem_cons.1 hMem with hFirst | hRest
          · exact Or.inr (hFirst ▸ List.mem_cons_self)
          · exact (ih hRest).imp id (List.mem_cons_of_mem _)

theorem insertEntry_ascending (name : String) (value : α) {entries : List (String × α)}
    (hAscending : entries.Pairwise fun first second => first.1 < second.1) :
    (insertEntry name value entries).Pairwise fun first second => first.1 < second.1 := by
  induction entries with
  | nil => exact List.pairwise_singleton _ _
  | cons first rest ih =>
      have hRest := List.pairwise_cons.1 hAscending
      simp only [insertEntry]
      split
      · rename_i hLess
        refine List.pairwise_cons.2 ⟨fun entry hMem => ?_, hAscending⟩
        rcases List.mem_cons.1 hMem with rfl | hMem
        · exact hLess
        · exact String.lt_trans hLess (hRest.1 entry hMem)
      · split
        · rename_i hSame
          exact List.pairwise_cons.2 ⟨fun entry hMem => hSame ▸ hRest.1 entry hMem, hRest.2⟩
        · rename_i hNotLess hNotSame
          refine List.pairwise_cons.2 ⟨fun entry hMem => ?_, ih hRest.2⟩
          rcases mem_insertEntry hMem with rfl | hMem
          · rcases Decidable.em (first.1 < name) with hLess | hNot
            · exact hLess
            · exact absurd (String.le_antisymm (String.not_lt.1 hNot)
                (String.not_lt.1 hNotLess)) hNotSame
          · exact hRest.1 entry hMem

def insert (map : NameMap α) (name : String) (value : α) : NameMap α :=
  ⟨insertEntry name value map.entries, insertEntry_ascending name value map.ascending⟩

def get? (map : NameMap α) (name : String) : Option α :=
  (map.entries.find? fun entry => entry.1 == name).map (·.2)

def size (map : NameMap α) : Nat := map.entries.length

def isEmpty (map : NameMap α) : Bool := map.entries.isEmpty

/-- The map of a list of entries; of one name the last entry counts. -/
def ofList (entries : List (String × α)) : NameMap α :=
  entries.foldl (fun map entry => map.insert entry.1 entry.2) empty

def map (convert : α → β) (source : NameMap α) : NameMap β :=
  ⟨source.entries.map fun entry => (entry.1, convert entry.2),
    List.pairwise_map.2 source.ascending⟩

end NameMap

end AnnotationDefaults
