import AnnotationDefaults.Proofs.Expectation.NameMap
import AnnotationDefaults.Proofs.Expectation.Specification
import AnnotationDefaults.Proofs.Json.Layout
import AnnotationDefaults.Proofs.Text.Encoded

set_option autoImplicit false

/-!
Documents of expectations written and read back. Whatever else a written document
holds, its table of methods is read as the table that was written, provided that each
specification leaves room for the two containers around it; otherwise the whole
document is refused.
-/

namespace AnnotationDefaults

namespace Reading

private theorem filter_ofMembers (name : String) (members : List (String × Json)) :
    ((Json.Tree.ofMembers members).filter fun member => member.1 = some name) =
      Json.Tree.ofMembers (members.filter fun member => member.1 = name) := by
  induction members with
  | nil => rfl
  | cons member rest ih =>
      rcases member with ⟨other, value⟩
      by_cases hName : other = name
      · simp [Json.Tree.ofMembers, hName, ih]
      · simp [Json.Tree.ofMembers, hName, ih]

theorem field?_ofMembers (name : String) (members : List (String × Json)) :
    field? (some name) (Json.Tree.ofMembers members) =
      (field? name members).map (Option.map Json.Tree.ofJson) := by
  rw [field?, filter_ofMembers, field?]
  generalize members.filter (fun member => member.1 = name) = found
  cases found with
  | nil => rfl
  | cons first others =>
      cases others with
      | nil => rfl
      | cons second rest => rfl

theorem any_isNone_ofMembers (members : List (String × Json)) :
    (Json.Tree.ofMembers members).any (·.1.isNone) = false := by
  induction members with
  | nil => rfl
  | cons member rest ih =>
      rw [Json.Tree.ofMembers, List.any_cons, ih]
      rfl

end Reading

namespace ExpectationDocument

/-- Each specification fits with the two containers that a document puts around it. -/
def Fits (document : ExpectationDocument) : Prop :=
  ∀ entry ∈ document.entries, entry.2.toJson.nesting + 2 ≤ nestingLimit

instance (document : ExpectationDocument) : Decidable document.Fits :=
  inferInstanceAs (Decidable (∀ entry ∈ document.entries, _))

theorem fits_iff {document : ExpectationDocument} :
    document.Fits ↔ ∀ entry ∈ document.entries, entry.2.toJson.nesting ≤ nestingLimit - 2 := by
  apply forall₂_congr
  intro entry hMem
  unfold nestingLimit
  omega

private def ofMember? (levels : Nat) (member : Option String × Json.Tree) :
    Option (String × Spec) := do
  return (← member.1, ← Spec.ofTree? levels member.2)

private theorem mapM_ofMembers (levels : Nat) (entries : List (String × Spec)) :
    (Json.Tree.ofMembers (entries.map fun entry => (entry.1, entry.2.toJson))).mapM
        (ofMember? levels) =
      if ∀ entry ∈ entries, entry.2.toJson.nesting ≤ levels then some entries else none := by
  induction entries with
  | nil => rfl
  | cons entry rest ih =>
      have hFirst : ofMember? levels (some entry.1, Json.Tree.ofJson entry.2.toJson) =
          if entry.2.toJson.nesting ≤ levels then some entry else none := by
        rw [ofMember?, Spec.ofTree?_ofJson]
        split
        · rfl
        · rfl
      rw [List.map_cons, Json.Tree.ofMembers, List.mapM_cons, hFirst, ih]
      simp only [List.forall_mem_cons]
      exact Json.Tree.bind_both entry rest List.cons

theorem ofTree?_ofJson {document : ExpectationDocument} {members : List (String × Json)}
    (hMethods : Reading.field? "methods" members = some (some document.methodsToJson)) :
    ofTree? (Json.Tree.ofJson (.object members)) =
      if document.Fits then some document else none := by
  have hField := Reading.field?_ofMembers "methods" members
  rw [hMethods, Option.map_some, Option.map_some] at hField
  have hTable : methodsOfTree? (nestingLimit - 1) (Json.Tree.ofJson document.methodsToJson) =
      if document.Fits then some document.entries else none := by
    rw [methodsToJson, Json.Tree.ofJson, methodsOfTree?, if_neg (by decide)]
    simp only [fits_iff]
    exact mapM_ofMembers (nestingLimit - 2) document.entries
  rw [Json.Tree.ofJson, ofTree?, Reading.any_isNone_ofMembers, if_neg Bool.false_ne_true, hField]
  simp only [Option.bind_eq_bind, Option.bind_some, hTable]
  by_cases hHolds : document.Fits
  · rw [if_pos hHolds, if_pos hHolds]
    exact congrArg some document.ofList_entries
  · rw [if_neg hHolds, if_neg hHolds]
    rfl

theorem nestingOfMembers_le_iff {entries : List (String × Spec)} {levels : Nat} :
    Json.nestingOfMembers (entries.map fun entry => (entry.1, entry.2.toJson)) ≤ levels ↔
      ∀ entry ∈ entries, entry.2.toJson.nesting ≤ levels := by
  induction entries with
  | nil => exact iff_of_true (Nat.zero_le levels) (List.forall_mem_nil _)
  | cons entry rest ih =>
      rw [List.map_cons, Json.nestingOfMembers, Nat.max_le, ih, List.forall_mem_cons]

theorem nesting_toJson_le_iff {document : ExpectationDocument} :
    document.toJson.nesting ≤ nestingLimit ↔ document.Fits := by
  have hNesting : document.toJson.nesting = Json.nestingOfMembers
      (document.entries.map fun entry => (entry.1, entry.2.toJson)) + 2 := by
    simp only [toJson, methodsToJson, Json.nesting, Json.nestingOfMembers]
    omega
  rw [hNesting, fits_iff, ← nestingOfMembers_le_iff]
  unfold nestingLimit
  omega

end ExpectationDocument

namespace ExpectationSet

theorem compileEntries_map (entries : List (String × ExpectedElement)) :
    compileEntries (entries.map fun entry => (entry.1, Spec.ofElement entry.2)) = .ok entries := by
  induction entries with
  | nil => rfl
  | cons entry rest ih =>
      rw [List.map_cons, compileEntries, Spec.compile_ofElement, ih]
      rfl

theorem ofDocument_toDocument (expectations : ExpectationSet) :
    ofDocument expectations.toDocument = .ok expectations := by
  rw [ofDocument, toDocument, NameMap.map, compileEntries_map]
  exact congrArg Except.ok expectations.ofList_entries

theorem fits_toDocument_iff {expectations : ExpectationSet} :
    expectations.toDocument.Fits ↔
      ∀ entry ∈ expectations.entries, entry.2.containers + 2 ≤ nestingLimit := by
  simp only [ExpectationDocument.Fits, toDocument, NameMap.map, List.forall_mem_map,
    Spec.nesting_toJson_ofElement]

theorem ofBytes_encode {expectations : ExpectationSet} {members : List (String × Json)}
    {text : String} (hText : Json.CutInto text.toList (Json.lexemes (.object members)))
    (hMethods : Reading.field? "methods" members =
      some (some expectations.toDocument.methodsToJson)) :
    ofBytes (Utf8.encode text) =
      if expectations.toDocument.Fits then .ok expectations else .error .notADocument := by
  rw [ofBytes, Utf8.symbols_encode, ofSymbols, ExpectationDocument.parse?,
    Json.Tree.parse?_of_cutInto hText, Option.bind_eq_bind, Option.bind_some,
    ExpectationDocument.ofTree?_ofJson hMethods]
  by_cases hFits : expectations.toDocument.Fits
  · rw [if_pos hFits, if_pos hFits]
    exact ofDocument_toDocument expectations
  · rw [if_neg hFits, if_neg hFits]

theorem plain_toJson_toDocument (expectations : ExpectationSet) :
    expectations.toDocument.toJson.Plain := by
  apply Json.Plain.object
  rw [List.forall_mem_singleton]
  apply Json.Plain.object
  intro member hMem
  rcases List.mem_map.1 hMem with ⟨entry, hEntry, rfl⟩
  rcases List.mem_map.1 hEntry with ⟨original, -, rfl⟩
  exact Spec.plain_toJson_ofElement original.2

/-- Every text with the lexemes of a set's document is read as that set as long as the
document nests no deeper than the reader follows, and refused otherwise. -/
theorem ofBytes_of_cutInto {expectations : ExpectationSet} {text : String}
    (hText : Json.CutInto text.toList (Json.lexemes expectations.toDocument.toJson)) :
    ofBytes (Utf8.encode text) = if expectations.toDocument.toJson.nesting ≤ nestingLimit then
      .ok expectations else .error .notADocument := by
  simp only [ExpectationDocument.nesting_toJson_le_iff]
  exact ofBytes_encode hText rfl

theorem ofBytes_toDocument (expectations : ExpectationSet) :
    ofBytes (Utf8.encode expectations.toDocument.toJson.compact) =
      (if expectations.toDocument.toJson.nesting ≤ 127 then .ok expectations
        else .error .notADocument) ∧
    ofBytes (Utf8.encode expectations.toDocument.toJson.indented) =
      (if expectations.toDocument.toJson.nesting ≤ 127 then .ok expectations
        else .error .notADocument) := by
  have hPlain := plain_toJson_toDocument expectations
  exact ⟨ofBytes_of_cutInto (Json.compact_cutInto hPlain),
    ofBytes_of_cutInto (Json.indented_cutInto hPlain)⟩

end ExpectationSet

end AnnotationDefaults
